import Muduo.TcpConnection.FileChain

open transition
open muduo.kernel muduo.buffer muduo.epoll

namespace muduo.tcp_connection

/-- Output that is shared with files, and may be shut down. `filed` is the number of bytes
of all accepted calls of `sendFile`. -/
structure Closing where
  sharing : Sharing
  filed : Nat

/-- The steps of shared output, and a call of `shutdown` by user code on the loop. -/
inductive Close where
  | share (i : Share)
  | shutdown

namespace Closing

def start (conn : TcpConnection) (poller : EPollPoller) : Closing where
  sharing := Sharing.start conn poller
  filed := 0

/-- The bytes that a step accepts for sending from a file. -/
def accepts (s : Sharing) : Share → Nat
  | .sendFile _ _ count _ => if s.world.conn.connected then count else 0
  | _ => 0

def step (alloc : Nat → Bool) (file : Nat → Text) (c : Closing) : Close → Option Closing
  | .share i => (c.sharing.step alloc file i).map fun sharing =>
      { sharing, filed := c.filed + accepts c.sharing i }
  | .shutdown => ((output alloc).step c.sharing.world .shutdown).map fun world =>
      { c with sharing := { c.sharing with world } }

/-- The bytes that have been handed to the socket from files. -/
def handed (file : Nat → Text) (c : Closing) : Nat := (fromFile file c.sharing.world.log).length

/-- A step calls `shutdownWrite`. -/
def Shuts (c next : Closing) : Prop :=
  next.sharing.world.log.flatMap Event.shut ≠ c.sharing.world.log.flatMap Event.shut

instance (c next : Closing) : Decidable (c.Shuts next) :=
  inferInstanceAs (Decidable (next.sharing.world.log.flatMap Event.shut ≠ c.sharing.world.log.flatMap Event.shut))

/-- A step calls `sendFileInLoop` and finds the connection shutting down. -/
def GivesUp (c : Closing) : Close → Prop
  | .share i => (c.sharing.fileCall i).isSome = true ∧ c.sharing.world.conn.state_ = .kDisconnecting
  | .shutdown => False

instance (c : Closing) : ∀ i : Close, Decidable (c.GivesUp i)
  | .share i => inferInstanceAs (Decidable ((c.sharing.fileCall i).isSome = true ∧
      c.sharing.world.conn.state_ = .kDisconnecting))
  | .shutdown => inferInstanceAs (Decidable False)

end Closing

def closing (alloc : Nat → Bool) (file : Nat → Text) : Machine Closing Close where
  step := Closing.step alloc file

/-- Sound answers and ranges, and a call of `shutdown` only takes effect when every file is finished. -/
def FilesFirst (file : Nat → Text) (c : Closing) : Close → Prop
  | .share i => i.Sound file
  | .shutdown => c.sharing.world.conn.connected = true → c.sharing.pending = []

instance (file : Nat → Text) (c : Closing) : ∀ i : Close, Decidable (FilesFirst file c i)
  | .share i => inferInstanceAs (Decidable (i.Sound file))
  | .shutdown => inferInstanceAs (Decidable (c.sharing.world.conn.connected = true → c.sharing.pending = []))

/-- The bytes that unfinished files are still to send. -/
def Functor.bytes : Functor → Nat
  | .sendFileInLoop _ _ count => count
  | _ => 0

def missing (functors : List Functor) : Nat := total Functor.bytes functors

@[simp] theorem missing_append (functors others : List Functor) :
    missing (functors ++ others) = missing functors + missing others := total_append _ _ _

/-- A call that is not given up hands over what it does not queue again. -/
theorem FileCall.handed {file : Nat → Text} {w w' : World} (call : FileCall) {next : List Act}
    (hinside : call.functor.Inside file) (hstate : w.conn.state_ ≠ .kDisconnecting)
    (hfatal : call.written.isFatal = false) (hrun : call.run w = some (w', next)) :
    (call.moved file w).length + missing (call.again w) = call.count ∧
    ∀ functor ∈ call.again w, functor.Inside file ∧ 0 < functor.bytes := by
  obtain ⟨hle, hmoved, hagain⟩ := call.moved_again hinside hstate (fun _ _ => hfatal) hrun
  obtain ⟨hoffset, hend⟩ := hinside
  have hlength : (call.moved file w).length = w.moves call.written := by
    rw [hmoved]
    apply length_range
    exact ⟨hoffset, by omega⟩
  rw [hlength, hagain]
  split
  · next hleft =>
    have hmissing : missing [.sendFileInLoop call.fileDescriptor (call.offset + w.moves call.written)
        (call.count - w.moves call.written)] = call.count - w.moves call.written := rfl
    refine ⟨by omega, ?_⟩
    intro functor hmem
    rw [List.mem_singleton.mp hmem]
    refine ⟨⟨?_, ?_⟩, Nat.sub_pos_of_lt hleft⟩ <;> omega
  · next hdone =>
    have hnone : missing [] = 0 := rfl
    exact ⟨by omega, by simp⟩

/-- The write side is only shut by a step behind which the connection is shutting down. -/
theorem output_shut {alloc : Nat → Bool} {w w' : World} {i : Output} (hstep : (output alloc).step w i = some w') :
    w'.log.flatMap Event.shut = w.log.flatMap Event.shut ∨ w'.conn.state_ = .kDisconnecting := by
  cases output_outcome hstep with
  | ignored => exact .inl rfl
  | sent buf written _ _ hsend =>
    left
    rw [World.flatMap_sendInLoop_of_write shut_ignores (fun _ _ => rfl) hsend]
    simp [Event.shut]
  | shut => exact .inr (Transfers.shutdownInLoop (w.setState .kDisconnecting)).state_eq
  | wrote written u next hwrite =>
    have hsame := World.flatMap_handleWrite_of_write shut_ignores (fun _ _ => rfl) hwrite
    split
    · by_cases hstate : u.conn.state_ = .kDisconnecting
      · exact .inr ((Transfers.drained u).state_eq.trans hstate)
      · rw [World.drained, if_neg hstate]
        exact .inl hsame
    · exact .inl hsame

theorem World.shut_sendFileInLoop {w w' : World} {fileDescriptor : Nat} {offset : Int} {count : Nat}
    {written : Written} {next : List Act}
    (h : w.sendFileInLoop fileDescriptor offset count written = some (w', next)) :
    (w'.leave next).log.flatMap Event.shut = w.log.flatMap Event.shut := by
  rw [World.flatMap_leave _ shut_ignores]
  cases sendFileInLoop_cases h with
  | down | busy => rfl
  | bytes | error => simp [Event.shut]

theorem Sharing.shut_step {alloc : Nat → Bool} {file : Nat → Text} {s t : Sharing} {i : Share} (hplain : s.Plain)
    (hstep : s.step alloc file i = some t) :
    t.world.log.flatMap Event.shut = s.world.log.flatMap Event.shut ∨
      t.world.conn.state_ = .kDisconnecting := by
  cases stepped hstep with
  | send buf written w hsend => exact output_shut (i := .send buf written) hsend
  | called _ _ _ _ _ _ _ hcalled => exact .inl (World.shut_sendFileInLoop hcalled)
  | ignored | swap => exact .inl rfl
  | handleWrite written w _ hwrite => exact output_shut (i := .handleWrite written) hwrite
  | functor written functor waiting w next hwaiting hcalled =>
    rcases hplain functor (by simp [hwaiting]) with hfile | hnotice
    · cases functor with
      | sendFileInLoop fileDescriptor offset count => exact .inl (World.shut_sendFileInLoop hcalled)
      | _ => cases hfile
    · obtain ⟨rfl, rfl⟩ := called_notice hnotice hcalled
      exact .inl rfl

/-- Every byte of an accepted file has been handed over or is still to be sent by an
unfinished file, and no file is unfinished once the connection is shutting down. -/
structure Whole (file : Nat → Text) (c : Closing) : Prop where
  plain : c.sharing.Plain
  whole : c.handed file + missing c.sharing.pending = c.filed
  inside : ∀ functor ∈ c.sharing.pending, functor.Inside file ∧ 0 < functor.bytes
  finished : c.sharing.world.conn.state_ = .kDisconnecting → c.sharing.pending = []

namespace Whole

variable {alloc : Nat → Bool} {file : Nat → Text} {c next : Closing}

theorem start (file : Nat → Text) (conn : TcpConnection) (poller : EPollPoller) :
    Whole file (Closing.start conn poller) := by
  have hnone : (Closing.start conn poller).sharing.pending = [] := rfl
  have hlog := World.log_connectEstablished { conn, poller, queued := [], log := [] }
  refine ⟨?_, ?_, by simp [hnone], fun _ => hnone⟩
  · intro functor hmem
    cases hmem
  · rw [hnone, Closing.handed, Closing.start, Sharing.start, established, hlog]
    rfl

/-- What a call of a step has to do with the files that are not finished. -/
theorem call_spec {i : Share} {call : FileCall} (h : Whole file c) (hsound : i.Sound file)
    (hcall : c.sharing.fileCall i = some call) :
    call.functor.Inside file ∧ call.written.isFatal = false ∧ c.sharing.world.conn.state_ ≠ .kDisconnecting ∧
    missing (c.sharing.behind i) + call.count = missing c.sharing.pending + Closing.accepts c.sharing i ∧
    ∀ functor ∈ c.sharing.behind i, functor ∈ c.sharing.pending := by
  cases i with
  | sendFile fileDescriptor offset count written =>
    simp only [Sharing.fileCall] at hcall
    split at hcall
    · next hconnected =>
      cases hcall
      have hstate : c.sharing.world.conn.state_ = .kConnected := by
        simpa [TcpConnection.connected] using hconnected
      refine ⟨hsound.2, hsound.1, ?_, ?_, fun _ hmem => hmem⟩
      · rw [hstate]
        decide
      · simp only [Sharing.behind, Closing.accepts, hconnected, if_true]
    · cases hcall
  | functor written =>
    obtain ⟨hwritten, hfirst⟩ := Sharing.pending_of_functor hcall
    have hmem : call.functor ∈ c.sharing.pending := by
      rw [hfirst]
      exact List.mem_cons_self ..
    refine ⟨(h.inside _ hmem).1, ?_, ?_, ?_, ?_⟩
    · rw [hwritten]
      exact hsound
    · intro hstate
      rw [h.finished hstate] at hmem
      cases hmem
    · have hmissing : missing c.sharing.pending =
          call.count + missing (c.sharing.behind (.functor written)) := by
        rw [hfirst]
        rfl
      have hnone : Closing.accepts c.sharing (.functor written) = 0 := rfl
      omega
    · intro functor hbehind
      exact List.mem_of_mem_tail hbehind
  | send | handleWrite | swap => cases hcall

theorem accepts_of_none {s : Sharing} {i : Share} (hcall : s.fileCall i = none) : Closing.accepts s i = 0 := by
  cases i with
  | sendFile fileDescriptor offset count written =>
    simp only [Sharing.fileCall] at hcall
    split at hcall
    · cases hcall
    · next hconnected => exact if_neg hconnected
  | _ => rfl

theorem share {i : Share} (h : Whole file c) (hsound : i.Sound file)
    (hstep : (closing alloc file).step c (.share i) = some next) : Whole file next := by
  obtain ⟨t, hshare, rfl⟩ := Option.map_eq_some_iff.mp hstep
  obtain ⟨hfile, hplain⟩ := h.plain.step hshare
  have hwhole := h.whole
  unfold Closing.handed at hwhole
  cases hfile with
  | other hcall hstate _ hpending hsent =>
    refine ⟨hplain, ?_, ?_, ?_⟩
    · simp only [Closing.handed, hsent, hpending, accepts_of_none hcall]
      exact hwhole
    · rw [hpending]
      exact h.inside
    · rw [hpending, hstate]
      exact h.finished
  | call call w after hcall hrun hconn hpending hsent =>
    obtain ⟨hinside, hfatal, hstate, hcount, hbehind⟩ := h.call_spec hsound hcall
    obtain ⟨hlength, hagain⟩ := call.handed hinside hstate hfatal hrun
    refine ⟨hplain, ?_, ?_, ?_⟩
    · simp only [Closing.handed, hsent, hpending, List.length_append, missing_append]
      omega
    · intro functor hmem
      rw [hpending, List.mem_append] at hmem
      rcases hmem with hmem | hmem
      · exact h.inside functor (hbehind functor hmem)
      · exact hagain functor hmem
    · rw [hconn]
      exact fun hdisconnecting => absurd hdisconnecting hstate

theorem shutdown (h : Whole file c) (hfinished : c.sharing.world.conn.connected = true → c.sharing.pending = [])
    (hstep : (closing alloc file).step c .shutdown = some next) : Whole file next := by
  obtain ⟨w, hshut, rfl⟩ := Option.map_eq_some_iff.mp hstep
  obtain ⟨_, _, hsent, functors, hqueued, hnotices⟩ := output_notices (i := .shutdown) file hshut
  have hpending : ({ c.sharing with world := w } : Sharing).pending = c.sharing.pending := by
    simp only [Sharing.pending, hqueued]
    rw [← List.append_assoc, List.filter_append, Sharing.filter_of_isNotice hnotices, List.append_nil]
  refine ⟨h.plain.of_notices rfl hqueued hnotices, ?_, ?_, ?_⟩
  · simp only [Closing.handed, hsent, hpending]
    exact h.whole
  · rw [hpending]
    exact h.inside
  · intro hstate
    rw [hpending]
    cases output_outcome hshut with
    | ignored => exact h.finished hstate
    | shut hconnected => exact hfinished hconnected

theorem step {i : Close} (h : Whole file c) (hok : FilesFirst file c i)
    (hstep : (closing alloc file).step c i = some next) : Whole file next := by
  cases i with
  | share i => exact h.share hok hstep
  | shutdown => exact h.shutdown hok hstep

/-- `shutdownWrite` is only called when every file has been handed over. -/
theorem handed_of_shuts {i : Close} (h : Whole file c) (hok : FilesFirst file c i)
    (hstep : (closing alloc file).step c i = some next) (hshuts : c.Shuts next) :
    next.handed file = next.filed := by
  have hnext := h.step hok hstep
  have hstate : next.sharing.world.conn.state_ = .kDisconnecting := by
    cases i with
    | share i =>
      obtain ⟨t, hshare, rfl⟩ := Option.map_eq_some_iff.mp hstep
      exact (Sharing.shut_step h.plain hshare).resolve_left hshuts
    | shutdown =>
      obtain ⟨w, hshut, rfl⟩ := Option.map_eq_some_iff.mp hstep
      exact (output_shut hshut).resolve_left hshuts
  have hwhole := hnext.whole
  rw [hnext.finished hstate] at hwhole
  exact hwhole

/-- No call of `sendFileInLoop` is given up. -/
theorem not_givesUp {i : Close} (h : Whole file c) (hok : FilesFirst file c i) : ¬ c.GivesUp i := by
  intro hgives
  cases i with
  | share i =>
    obtain ⟨hsome, hstate⟩ := hgives
    obtain ⟨call, hcall⟩ := Option.isSome_iff_exists.mp hsome
    exact (h.call_spec hok hcall).2.2.1 hstate
  | shutdown => exact hgives

/-- An unfinished file is still owed some bytes. -/
theorem handed_lt (h : Whole file c) (hpending : c.sharing.pending ≠ []) : c.handed file < c.filed := by
  have hwhole := h.whole
  obtain ⟨functor, rest, hcons⟩ := List.exists_cons_of_ne_nil hpending
  have hpos := (h.inside functor (by rw [hcons]; exact List.mem_cons_self ..)).2
  have hmissing : missing c.sharing.pending = functor.bytes + missing rest := by
    rw [hcons]
    rfl
  omega

end Whole

/-- A step of the shut down connection does nothing for its files. -/
theorem Closing.step_disconnecting {alloc : Nat → Bool} {file : Nat → Text} {c next : Closing} {i : Close}
    (hplain : c.sharing.Plain) (hstate : c.sharing.world.conn.state_ = .kDisconnecting)
    (hstep : (closing alloc file).step c i = some next) :
    next.sharing.Plain ∧ next.sharing.world.conn.state_ = .kDisconnecting ∧ next.handed file = c.handed file ∧
    next.filed = c.filed := by
  have hconnected : c.sharing.world.conn.connected = false := by
    rw [TcpConnection.connected, hstate]
    rfl
  cases i with
  | share i =>
    obtain ⟨t, hshare, rfl⟩ := Option.map_eq_some_iff.mp hstep
    obtain ⟨hfile, hplain'⟩ := hplain.step hshare
    have haccepts : Closing.accepts c.sharing i = 0 := by
      cases i with
      | sendFile => exact if_neg (by rw [hconnected]; exact Bool.false_ne_true)
      | _ => rfl
    refine ⟨hplain', ?_, ?_, by simp only [haccepts, Nat.add_zero]⟩
    · cases hfile with
      | other _ hsame => exact hsame.trans hstate
      | call _ _ _ _ _ hconn => rw [hconn]; exact hstate
    · cases hfile with
      | other _ _ _ _ hsent => simp only [Closing.handed, hsent]
      | call call _ _ _ _ _ _ hsent =>
        have hnone : call.moved file c.sharing.world = [] := if_pos hstate
        simp only [Closing.handed, hsent, hnone, List.append_nil]
  | shutdown =>
    obtain ⟨w, hshut, rfl⟩ := Option.map_eq_some_iff.mp hstep
    cases output_outcome hshut with
    | ignored => exact ⟨hplain, hstate, rfl, rfl⟩
    | shut hup =>
      rw [hconnected] at hup
      cases hup

/-- Nor does a run of it. -/
theorem Closing.steps_disconnecting {alloc : Nat → Bool} {file : Nat → Text} {c last : Closing}
    (hplain : c.sharing.Plain) (hstate : c.sharing.world.conn.state_ = .kDisconnecting)
    (hrun : (closing alloc file).Steps Machine.Any c last) :
    last.handed file = c.handed file ∧ last.filed = c.filed := by
  have hall := hrun.invariant (P := fun d => d.sharing.Plain ∧ d.sharing.world.conn.state_ = .kDisconnecting ∧
      d.handed file = c.handed file ∧ d.filed = c.filed) (by
    rintro d i e ⟨hplain, hstate, hhanded, hfiled⟩ _ hnext
    obtain ⟨hplain', hstate', hhanded', hfiled'⟩ := Closing.step_disconnecting hplain hstate hnext
    exact ⟨hplain', hstate', hhanded'.trans hhanded, hfiled'.trans hfiled⟩) ⟨hplain, hstate, rfl, rfl⟩
  exact hall.2.2

/-- A call of `shutdown` that finds a file unfinished leaves bytes behind. -/
theorem Whole.cut {alloc : Nat → Bool} {file : Nat → Text} {c next : Closing} (h : Whole file c)
    (hconnected : c.sharing.world.conn.connected = true) (hpending : c.sharing.pending ≠ [])
    (hstep : (closing alloc file).step c .shutdown = some next) :
    next.sharing.Plain ∧ next.sharing.world.conn.state_ = .kDisconnecting ∧ next.handed file < next.filed := by
  obtain ⟨w, hshut, rfl⟩ := Option.map_eq_some_iff.mp hstep
  obtain ⟨_, _, hsent, functors, hqueued, hnotices⟩ := output_notices (i := .shutdown) file hshut
  refine ⟨h.plain.of_notices rfl hqueued hnotices, ?_, ?_⟩
  · cases output_outcome hshut with
    | ignored _ hdown =>
      rw [hconnected] at hdown
      cases hdown
    | shut => exact (Transfers.shutdownInLoop _).state_eq
  · simp only [Closing.handed, hsent]
    exact h.handed_lt hpending

/-- `shutdown` does not cut off a file if every file is finished when it is called. In
every run of sound steps in which this holds, `shutdownWrite` is only called when all bytes
of all accepted files have been handed to the socket, and no call of `sendFileInLoop` finds
the connection shutting down. A call of `shutdown` that finds a file unfinished cuts it
off: whatever follows, its bytes are never all handed over. -/
theorem shutdown_behind_files (alloc : Nat → Bool) (file : Nat → Text) (conn : TcpConnection) (poller : EPollPoller)
    {c : Closing} (hrun : (closing alloc file).Steps (FilesFirst file) (Closing.start conn poller) c) :
    (∀ i next, FilesFirst file c i → (closing alloc file).step c i = some next →
      (c.Shuts next → next.handed file = next.filed) ∧ ¬ c.GivesUp i) ∧
    (c.sharing.world.conn.connected = true → c.sharing.pending ≠ [] →
      ∀ next last, (closing alloc file).step c .shutdown = some next →
        (closing alloc file).Steps Machine.Any next last → last.handed file < last.filed) := by
  have hwhole : Whole file c :=
    hrun.invariant (fun _ _ _ h hok hstep => h.step hok hstep) (.start file conn poller)
  refine ⟨fun i next hok hstep => ⟨hwhole.handed_of_shuts hok hstep, hwhole.not_givesUp hok⟩, ?_⟩
  intro hconnected hpending next last hstep hlast
  obtain ⟨hplain, hstate, hcut⟩ := hwhole.cut hconnected hpending hstep
  obtain ⟨hhanded, hfiled⟩ := Closing.steps_disconnecting hplain hstate hlast
  rw [hhanded, hfiled]
  exact hcut

/-- The socket takes one byte of a file of two, and `shutdown` is called. The write side is
shut behind this byte, and the call for the other one is given up. -/
theorem shutdown_behind_files_cut :
    ∃ c next u, (closing (fun _ => true) twoBytes).step (Closing.start (.construct 1 5) .construct)
        (.share (.sendFile 7 0 2 (.bytes 1))) = some c ∧
      (closing (fun _ => true) twoBytes).step c .shutdown = some next ∧
      c.Shuts next ∧ next.handed twoBytes = 1 ∧ next.filed = 2 ∧
      (closing (fun _ => true) twoBytes).step next (.share .swap) = some u ∧
      u.GivesUp (.share (.functor (.bytes 1))) := by
  have hsteps : (((closing (fun _ => true) twoBytes).step (Closing.start (.construct 1 5) .construct)
      (.share (.sendFile 7 0 2 (.bytes 1)))).bind fun c =>
        ((closing (fun _ => true) twoBytes).step c .shutdown).bind fun next =>
          ((closing (fun _ => true) twoBytes).step next (.share .swap)).map fun u =>
            (decide (c.Shuts next), next.handed twoBytes, next.filed,
              decide (u.GivesUp (.share (.functor (.bytes 1)))))) = some (true, 1, 2, true) := by decide +kernel
  obtain ⟨c, hcall, hsteps⟩ := Option.bind_eq_some_iff.mp hsteps
  obtain ⟨next, hshut, hsteps⟩ := Option.bind_eq_some_iff.mp hsteps
  obtain ⟨u, hswap, hdata⟩ := Option.map_eq_some_iff.mp hsteps
  simp only [Prod.mk.injEq, decide_eq_true_eq] at hdata
  exact ⟨c, next, u, hcall, hshut, hdata.1, hdata.2.1, hdata.2.2.1, hswap, hdata.2.2.2⟩

/-- The file is finished before the connection is shut down. -/
def shutdownInTurn : List Close :=
  [.share (.sendFile 7 0 2 (.bytes 1)), .share .swap, .share (.functor (.bytes 1))]

theorem shutdown_behind_files_inTurn :
    ∃ c, (closing (fun _ => true) twoBytes).run (Closing.start (.construct 1 5) .construct) shutdownInTurn = some c ∧
      ∀ i next, FilesFirst twoBytes c i → (closing (fun _ => true) twoBytes).step c i = some next →
        (c.Shuts next → next.handed twoBytes = next.filed) ∧ ¬ c.GivesUp i := by
  have hruns : ((closing (fun _ => true) twoBytes).run (Closing.start (.construct 1 5) .construct)
      shutdownInTurn).isSome = true := by decide +kernel
  obtain ⟨c, hrun⟩ := Option.isSome_iff_exists.mp hruns
  exact ⟨c, hrun, (shutdown_behind_files _ _ _ _ (Machine.steps_of_run hrun (by decide +kernel))).1⟩

end muduo.tcp_connection
