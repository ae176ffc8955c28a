import Muduo.TcpConnection.FileChain

open transition
open muduo.kernel muduo.buffer muduo.epoll

namespace muduo.tcp_connection

/-- The call waits: for the backlog to drain, for room in the socket, or for a signal to pass. -/
def FileCall.Waits (w : World) (call : FileCall) : Prop :=
  ¬ w.Direct ∨ call.written = .error .EWOULDBLOCK ∨ call.written = .error .EINTR

instance (w : World) (call : FileCall) : Decidable (call.Waits w) :=
  inferInstanceAs (Decidable (¬ w.Direct ∨ call.written = .error .EWOULDBLOCK ∨ call.written = .error .EINTR))

/-- A call that queues itself again waits, or has sent some bytes and owes others. -/
def Justified (s : Sharing) (i : Share) : Prop :=
  ∀ call ∈ s.fileCall i, ∀ w next, call.run s.world = some (w, next) → next.any Act.leavesFile = true →
    call.Waits s.world ∨ (0 < call.written.taken ∧ (call.written.taken : Int) < ssize call.count)

/-- A call of `sendfile` for some bytes is given some of them, or an error that tells a
full socket, a signal or a dead peer. -/
def Ends (s : Sharing) (i : Share) : Prop :=
  ∀ call ∈ s.fileCall i, s.world.conn.state_ ≠ .kDisconnecting → s.world.Direct → 0 < ssize call.count →
    0 < call.written.taken ∨ call.written = .error .EWOULDBLOCK ∨ call.written = .error .EINTR ∨
      call.written.isFatal = true

instance (s : Sharing) (i : Share) : Decidable (Ends s i) :=
  inferInstanceAs (Decidable (∀ call ∈ s.fileCall i, s.world.conn.state_ ≠ .kDisconnecting → s.world.Direct →
    0 < ssize call.count → 0 < call.written.taken ∨ call.written = .error .EWOULDBLOCK ∨
      call.written = .error .EINTR ∨ call.written.isFatal = true))

theorem any_leavesFile (next : List Act) : next.any Act.leavesFile = (left next).any Functor.isFile := by
  induction next with
  | nil => rfl
  | cons act next ih =>
    cases act with
    | queue functor => rw [List.any_cons, ih]; rfl
    | _ => exact ih

/-- A call leaves a functor of its own exactly if it sends again. -/
theorem FileCall.leaves_iff {w w' : World} {call : FileCall} {next : List Act}
    (hrun : call.run w = some (w', next)) :
    next.any Act.leavesFile = true ↔ w.Resends call.count call.written := by
  have hleft : left next = call.completion w ++ call.again w := World.left_sendFileInLoop w hrun
  have hcompletion : (call.completion w).any Functor.isFile = false := by
    unfold completion
    split <;> rfl
  rw [any_leavesFile, hleft, List.any_append, hcompletion, Bool.false_or]
  unfold again
  split
  · next hresends => exact ⟨fun _ => hresends, fun _ => rfl⟩
  · next hdone => exact ⟨fun hnil => absurd hnil Bool.false_ne_true, fun hresends => absurd hresends hdone⟩

/-- A step that is possible is justified exactly if its answers end. -/
theorem justified_iff {alloc : Nat → Bool} {file : Nat → Text} {s t : Sharing} {i : Share} (hplain : s.Plain)
    (hstep : s.step alloc file i = some t) : Justified s i ↔ Ends s i := by
  constructor
  · intro hjustified call hcall hstate hdirect howed
    have hmoves : s.world.moves call.written = call.written.taken := if_pos hdirect
    obtain ⟨w, next, hrun⟩ : ∃ w next, call.run s.world = some (w, next) := by
      cases (hplain.step hstep).1 with
      | other hnone =>
        rw [Option.mem_def.mp hcall] at hnone
        cases hnone
      | call call' w next hcall' hrun =>
        rw [Option.mem_def.mp hcall] at hcall'
        cases hcall'
        exact ⟨w, next, hrun⟩
    by_cases htaken : 0 < call.written.taken
    · exact .inl htaken
    · cases hfatal : call.written.isFatal with
      | true => exact .inr (.inr (.inr rfl))
      | false =>
        have hresends : s.world.Resends call.count call.written := ⟨hstate, fun _ => hfatal, by omega⟩
        rcases hjustified call hcall w next hrun ((FileCall.leaves_iff hrun).mpr hresends) with
          (hbusy | hfull | hsignal) | ⟨hsome, _⟩
        · exact absurd hdirect hbusy
        · exact .inr (.inl hfull)
        · exact .inr (.inr (.inl hsignal))
        · exact absurd hsome htaken
  · intro hends call hcall w next hrun hleaves
    obtain ⟨hstate, hfatal, hleft⟩ := (FileCall.leaves_iff hrun).mp hleaves
    by_cases hdirect : s.world.Direct
    · have hmoves : s.world.moves call.written = call.written.taken := if_pos hdirect
      rcases hends call hcall hstate hdirect (by omega) with hsome | hfull | hsignal | hdead
      · exact .inr ⟨hsome, by omega⟩
      · exact .inl (.inr (.inl hfull))
      · exact .inl (.inr (.inr hsignal))
      · rw [hfatal hdirect] at hdead
        cases hdead
    · exact .inl (.inl hdirect)

theorem ssize_le (count : Nat) : ssize count ≤ count := by
  unfold ssize
  split <;> omega

/-- What an unfinished file can still cost: a call for each byte that it owes, and one more. -/
def Functor.cost : Functor → Nat
  | .sendFileInLoop _ _ count => count + 1
  | _ => 0

def weight (functors : List Functor) : Nat := total Functor.cost functors

@[simp] theorem weight_append (functors others : List Functor) :
    weight (functors ++ others) = weight functors + weight others := total_append _ _ _

/-- The bytes that a step asks for, and one more. -/
def Share.given : Share → Nat
  | .sendFile _ _ count _ => count + 1
  | _ => 0

/-- What the steps of a run ask for. -/
def given : List Share → Nat
  | [] => 0
  | i :: is => i.given + given is

/-- The calls of a step that do not wait. -/
def Sharing.strides (s : Sharing) (i : Share) : Nat :=
  match s.fileCall i with
  | some call => if call.Waits s.world then 0 else 1
  | none => 0

/-- The calls of a run that do not wait. -/
def strides (alloc : Nat → Bool) (file : Nat → Text) (s : Sharing) : List Share → Nat
  | [] => 0
  | i :: is => s.strides i + match (sharing alloc file).step s i with
    | some t => strides alloc file t is
    | none => 0

/-- A call that does not wait owes less behind it, or nothing. -/
theorem FileCall.weight_again {s : Sharing} {i : Share} {call : FileCall} (hcall : s.fileCall i = some call)
    (hends : Ends s i) : s.strides i + weight (call.again s.world) ≤ call.count + 1 := by
  simp only [Sharing.strides, hcall]
  unfold again
  have hsize := ssize_le call.count
  by_cases hresends : s.world.Resends call.count call.written
  · have hrest : weight [s.world.rest call.fileDescriptor call.offset call.count call.written] =
        (ssize call.count - s.world.moves call.written).toNat + 1 := rfl
    rw [if_pos hresends, hrest]
    obtain ⟨hstate, hfatal, hleft⟩ := hresends
    by_cases hwaits : call.Waits s.world
    · rw [if_pos hwaits]
      omega
    · rw [if_neg hwaits]
      obtain ⟨hdirect, hfull, hsignal⟩ : s.world.Direct ∧ call.written ≠ .error .EWOULDBLOCK ∧
          call.written ≠ .error .EINTR := by
        simpa only [Waits, not_or, Classical.not_not] using hwaits
      have hmoves : s.world.moves call.written = call.written.taken := if_pos hdirect
      have hsome : 0 < call.written.taken := by
        rcases hends call hcall hstate hdirect (by omega) with hsome | hfull' | hsignal' | hdead
        · exact hsome
        · exact absurd hfull' hfull
        · exact absurd hsignal' hsignal
        · rw [hfatal hdirect] at hdead
          cases hdead
      omega
  · rw [if_neg hresends]
    have hnil : weight [] = 0 := rfl
    rw [hnil]
    split <;> omega

/-- One step pays for its calls with what its files owe less. -/
theorem strides_step {alloc : Nat → Bool} {file : Nat → Text} {s t : Sharing} {i : Share} (hplain : s.Plain)
    (hends : Ends s i) (hstep : s.step alloc file i = some t) :
    s.strides i + weight t.pending ≤ weight s.pending + i.given := by
  cases (hplain.step hstep).1 with
  | other hcall _ _ hpending =>
    simp only [Sharing.strides, hcall, hpending]
    omega
  | call call w next hcall _ _ hpending =>
    have hagain := FileCall.weight_again hcall hends
    rw [hpending, weight_append]
    cases i with
    | functor written =>
      obtain ⟨_, hfirst⟩ := Sharing.pending_of_functor hcall
      have hweight : weight s.pending = call.count + 1 + weight (s.behind (.functor written)) := by
        rw [hfirst]
        rfl
      omega
    | sendFile fileDescriptor offset count written =>
      have hcount : call.count = count := by
        simp only [Sharing.fileCall] at hcall
        split at hcall
        · cases hcall
          rfl
        · cases hcall
      have hgiven : (Share.sendFile fileDescriptor offset count written).given = count + 1 := rfl
      have hbehind : s.behind (.sendFile fileDescriptor offset count written) = s.pending := rfl
      rw [hbehind, hgiven]
      omega
    | send | handleWrite | swap => cases hcall

theorem strides_run {alloc : Nat → Bool} {file : Nat → Text} {s t : Sharing} {is : List Share} (hplain : s.Plain)
    (hends : (sharing alloc file).Along Ends s is) (hrun : (sharing alloc file).run s is = some t) :
    strides alloc file s is + weight t.pending ≤ weight s.pending + given is := by
  induction is generalizing s with
  | nil =>
    cases hrun
    exact Nat.le_of_eq (Nat.add_comm _ _)
  | cons i is ih =>
    obtain ⟨u, hstep, hrun⟩ := Machine.step_of_run_cons hrun
    obtain ⟨hend, hrest⟩ := (Machine.Along.cons_iff hstep).mp hends
    have hone := strides_step hplain hend hstep
    have hothers := ih (hplain.step hstep).2 hrest hrun
    simp only [strides, hstep, given]
    omega

/-- A file comes to its end. A call of `sendFileInLoop` only queues itself again to wait
or to send what it owes behind what it has sent, exactly if `sendfile` never takes nothing
of some bytes and never fails in another way; and then it owes less behind it, unless it
waits. In a run where this holds the calls that do not wait are paid for by the bytes that
were asked for. -/
theorem sendFile_ends (alloc : Nat → Bool) (file : Nat → Text) {s : Sharing} (hplain : s.Plain) :
    (∀ i t, (sharing alloc file).step s i = some t → (Justified s i ↔ Ends s i)) ∧
    (∀ i, Ends s i → ∀ call ∈ s.fileCall i, ¬ call.Waits s.world →
      weight (call.again s.world) < call.functor.cost) ∧
    ∀ is t, (sharing alloc file).Along Ends s is → (sharing alloc file).run s is = some t →
      strides alloc file s is + weight t.pending ≤ weight s.pending + given is := by
  refine ⟨fun _ _ hstep => justified_iff hplain hstep, ?_, fun _ _ hends hrun => strides_run hplain hends hrun⟩
  intro i hends call hcall hstrides
  have hagain := FileCall.weight_again hcall hends
  have hone : s.strides i = 1 := by
    simp only [Sharing.strides, Option.mem_def.mp hcall, if_neg hstrides]
  have hcost : call.functor.cost = call.count + 1 := rfl
  omega

/-- The end of a file of two bytes has been reached, and one more is asked for. -/
structure Spinning (s : Sharing) : Prop where
  state_ne : s.world.conn.state_ ≠ .kDisconnecting
  direct : s.world.Direct
  waiting : s.waiting = []
  queued : s.world.queued = [.sendFileInLoop 7 2 1]
  sent : fromFile twoBytes s.world.log = [70, 71]

namespace Spinning

variable {s : Sharing}

/-- The loop takes the functor from the queue. -/
def swapped (s : Sharing) : Sharing :=
  { s with
    world := { s.world with queued := [] }
    waiting := [.sendFileInLoop 7 2 1]
    again := false
    late := false }

theorem swap (h : Spinning s) : (sharing (fun _ => true) twoBytes).step s .swap = some (swapped s) := by
  simp only [sharing, Sharing.step, h.waiting, if_true, h.queued, swapped]

/-- `sendfile` takes nothing, and the call queues itself again. -/
theorem call (h : Spinning s) : (swapped s).world.sendFileInLoop 7 2 1 (.bytes 0) =
    some ((swapped s).world.emit (.sendfile 7 2 1 (.bytes 0)), [.queue (.sendFileInLoop 7 2 1)]) := by
  have hdirect : (swapped s).world.conn.channel_.isWriting = false ∧
      (swapped s).world.conn.outputBuffer_.readableBytes = 0 := h.direct
  have hstate : (swapped s).world.conn.state_ ≠ .kDisconnecting := h.state_ne
  have hpossible : (Written.bytes 0).Possible 1 := Nat.zero_le 1
  unfold World.sendFileInLoop
  rw [if_neg hstate, if_pos hdirect, if_pos hpossible]
  rfl

theorem not_justified (h : Spinning s) : ¬ Justified (swapped s) (.functor (.bytes 0)) := by
  intro hjustified
  rcases hjustified ⟨7, 2, 1, .bytes 0⟩ rfl _ _ h.call rfl with (hbusy | hfull | hsignal) | ⟨hsome, _⟩
  · exact hbusy h.direct
  · cases hfull
  · cases hsignal
  · exact absurd hsome (Nat.lt_irrefl 0)

theorem round (h : Spinning s) :
    ∃ t, (sharing (fun _ => true) twoBytes).run s [.swap, .functor (.bytes 0)] = some t ∧ Spinning t := by
  refine ⟨{ swapped s with
    world := ((swapped s).world.emit (.sendfile 7 2 1 (.bytes 0))).leave [.queue (.sendFileInLoop 7 2 1)]
    waiting := []
    again := true }, ?_, h.state_ne, h.direct, rfl, rfl, ?_⟩
  · simp only [Machine.run, h.swap, Option.bind_some]
    have hwaiting : (swapped s).waiting = [.sendFileInLoop 7 2 1] := rfl
    simp only [sharing, Sharing.step, hwaiting, World.call, h.call, Option.map_some, Option.bind_some]
    rfl
  · rw [fromFile, World.flatMap_leave _ (fromFile_ignores twoBytes), World.log_emit, List.flatMap_append]
    exact congrArg (· ++ []) h.sent

theorem rounds (h : Spinning s) (n : Nat) :
    ∃ t, (sharing (fun _ => true) twoBytes).run s (List.replicate n [Share.swap, .functor (.bytes 0)]).flatten =
      some t ∧ Spinning t := by
  induction n generalizing s with
  | zero => exact ⟨s, rfl, h⟩
  | succ n ih =>
    obtain ⟨u, hround, hu⟩ := h.round
    obtain ⟨t, hrest, ht⟩ := ih hu
    refine ⟨t, ?_, ht⟩
    rw [List.replicate_succ, List.flatten_cons]
    exact Machine.run_trans hround hrest

end Spinning

/-- Of a file of two bytes three are asked for. `sendfile` takes two of them and then none,
and the call for the third queues itself again for as often as the loop comes round. -/
theorem sendFile_ends_spinning :
    ∃ s u, (sharing (fun _ => true) twoBytes).step (Sharing.start (.construct 1 5) .construct)
        (.sendFile 7 0 3 (.bytes 2)) = some s ∧
      (sharing (fun _ => true) twoBytes).step s .swap = some u ∧ ¬ Justified u (.functor (.bytes 0)) ∧
      ∀ n, ∃ t, (sharing (fun _ => true) twoBytes).run s
          (List.replicate n [Share.swap, .functor (.bytes 0)]).flatten = some t ∧
        t.world.queued = [.sendFileInLoop 7 2 1] ∧ fromFile twoBytes t.world.log = [70, 71] := by
  have hfirst : ((sharing (fun _ => true) twoBytes).step (Sharing.start (.construct 1 5) .construct)
      (.sendFile 7 0 3 (.bytes 2))).map (fun s => (s.world.conn.state_, decide s.world.Direct, s.waiting,
        s.world.queued, fromFile twoBytes s.world.log)) =
      some (.kConnected, true, [], [.sendFileInLoop 7 2 1], [70, 71]) := by decide +kernel
  obtain ⟨s, hstep, hdata⟩ := Option.map_eq_some_iff.mp hfirst
  simp only [Prod.mk.injEq, decide_eq_true_eq] at hdata
  obtain ⟨hstate, hdirect, hwaiting, hqueued, hsent⟩ := hdata
  have hspinning : Spinning s := ⟨by rw [hstate]; decide, hdirect, hwaiting, hqueued, hsent⟩
  refine ⟨s, Spinning.swapped s, hstep, hspinning.swap, hspinning.not_justified, fun n => ?_⟩
  obtain ⟨t, hrun, ht⟩ := hspinning.rounds n
  exact ⟨t, hrun, ht.queued, ht.sent⟩

/-- Of the two bytes one is sent at once, one waits for the socket, and the file ends. -/
theorem sendFile_ends_twoBytes :
    ∃ t, (sharing (fun _ => true) twoBytes).run (Sharing.start (.construct 1 5) .construct)
        [.sendFile 7 0 2 (.bytes 1), .swap, .functor (.error .EWOULDBLOCK), .swap, .functor (.bytes 1)] = some t ∧
      strides (fun _ => true) twoBytes (Sharing.start (.construct 1 5) .construct)
          [.sendFile 7 0 2 (.bytes 1), .swap, .functor (.error .EWOULDBLOCK), .swap, .functor (.bytes 1)] +
        weight t.pending ≤ weight (Sharing.start (.construct 1 5) .construct).pending + 3 := by
  have hruns : ((sharing (fun _ => true) twoBytes).run (Sharing.start (.construct 1 5) .construct)
      [.sendFile 7 0 2 (.bytes 1), .swap, .functor (.error .EWOULDBLOCK), .swap, .functor (.bytes 1)]).isSome =
        true := by decide +kernel
  obtain ⟨t, hrun⟩ := Option.isSome_iff_exists.mp hruns
  have hplain : (Sharing.start (.construct 1 5) .construct).Plain := by
    intro functor hmem
    cases hmem
  exact ⟨t, hrun, (sendFile_ends (fun _ => true) twoBytes hplain).2.2 _ t (by decide +kernel) hrun⟩

end muduo.tcp_connection
