import Muduo.TcpConnection.SendFile
import Muduo.TcpConnection.Notices

open transition record
open muduo.kernel muduo.buffer muduo.epoll

namespace muduo.tcp_connection

/-- The bytes that the socket accepts from a file by an event. -/
def Event.fromFile (file : Nat → Text) : Event → List UInt8
  | .sendfile fileDescriptor offset count written => (range file fileDescriptor offset count).take written.taken
  | _ => []

def fromFile (file : Nat → Text) (log : List Event) : List UInt8 := log.flatMap (Event.fromFile file)

theorem fromFile_ignores (file : Nat → Text) : Ignores (Event.fromFile file) :=
  ⟨fun _ => rfl, fun _ => rfl, fun _ => rfl⟩

/-- The sum of a measure of functors. -/
def total (measure : Functor → Nat) : List Functor → Nat
  | [] => 0
  | functor :: rest => measure functor + total measure rest

@[simp] theorem total_append (measure : Functor → Nat) (functors others : List Functor) :
    total measure (functors ++ others) = total measure functors + total measure others := by
  induction functors with
  | nil => exact (Nat.zero_add _).symm
  | cons functor rest ih =>
    simp only [List.cons_append, total, ih]
    omega

/-- The functors that a list of acts queues. -/
def left : List Act → List Functor
  | [] => []
  | .queue functor :: rest => functor :: left rest
  | _ :: rest => left rest

@[simp] theorem left_append (acts rest : List Act) : left (acts ++ rest) = left acts ++ left rest := by
  induction acts with
  | nil => rfl
  | cons act acts ih =>
    cases act with
    | queue functor => exact congrArg _ ih
    | _ => exact ih

namespace World

variable (w : World)

/-- Nothing is waiting to be written, so that the kernel can be called at once. -/
def Direct : Prop := w.conn.channel_.isWriting = false ∧ w.conn.outputBuffer_.readableBytes = 0

instance : Decidable w.Direct :=
  inferInstanceAs (Decidable (w.conn.channel_.isWriting = false ∧ w.conn.outputBuffer_.readableBytes = 0))

@[simp] theorem conn_leave (next : List Act) : (w.leave next).conn = w.conn := by
  fun_induction leave w next with
  | case1 => rfl
  | case2 w functor rest ih => exact ih
  | case3 w act rest _ ih => exact ih

theorem queued_leave (next : List Act) : (w.leave next).queued = w.queued ++ left next := by
  fun_induction leave w next with
  | case1 => exact (List.append_nil _).symm
  | case2 w functor rest ih =>
    rw [ih, queued_queueInLoop, List.append_assoc]
    rfl
  | case3 w act rest hact ih =>
    rw [ih]
    cases act with
    | queue functor => exact absurd rfl (hact functor)
    | _ => rfl

theorem flatMap_leave {B : Type} {f : Event → List B} (hf : Ignores f) (next : List Act) :
    (w.leave next).log.flatMap f = w.log.flatMap f := by
  fun_induction leave w next with
  | case1 => rfl
  | case2 w functor rest ih =>
    rw [ih]
    simp [hf.queueInLoop]
  | case3 w act rest _ ih => exact ih

/-- `sendFileInLoop` queues itself again. -/
def Resends (count : Nat) (written : Written) : Prop :=
  w.conn.state_ ≠ .kDisconnecting ∧ (w.Direct → written.isFatal = false) ∧ (w.moves written : Int) < ssize count

/-- `sendFileInLoop` queues the write-complete callback. -/
def Completes (count : Nat) (written : Written) : Prop :=
  w.conn.state_ ≠ .kDisconnecting ∧ w.Direct ∧ 0 ≤ ssize count ∧ written = .bytes (ssize count).toNat ∧
  w.conn.writeCompleteCallback_ = true

instance (count : Nat) (written : Written) : Decidable (w.Resends count written) :=
  inferInstanceAs (Decidable (w.conn.state_ ≠ .kDisconnecting ∧ (w.Direct → written.isFatal = false) ∧
    (w.moves written : Int) < ssize count))

instance (count : Nat) (written : Written) : Decidable (w.Completes count written) :=
  inferInstanceAs (Decidable (w.conn.state_ ≠ .kDisconnecting ∧ w.Direct ∧ 0 ≤ ssize count ∧
    written = .bytes (ssize count).toNat ∧ w.conn.writeCompleteCallback_ = true))

/-- The functor for the bytes of a range that a call has not sent. -/
def rest (fileDescriptor : Nat) (offset : Int) (count : Nat) (written : Written) : Functor :=
  .sendFileInLoop fileDescriptor (offset + w.moves written) (ssize count - w.moves written).toNat

/-- What a call of `sendFileInLoop` queues, whatever its arguments are. -/
theorem left_sendFileInLoop {w' : World} {fileDescriptor : Nat} {offset : Int} {count : Nat}
    {written : Written} {next : List Act}
    (h : w.sendFileInLoop fileDescriptor offset count written = some (w', next)) :
    left next = (if w.Completes count written then [.writeCompleteCallback_] else []) ++
      if w.Resends count written then [w.rest fileDescriptor offset count written] else [] := by
  have hrest (hstate : w.conn.state_ ≠ .kDisconnecting) (hfatal : w.Direct → written.isFatal = false) :
      left (requeue fileDescriptor (offset + w.moves written) (ssize count - w.moves written)) =
        if w.Resends count written then [w.rest fileDescriptor offset count written] else [] := by
    have hresends : w.Resends count written ↔ 0 < ssize count - (w.moves written : Int) :=
      ⟨fun hall => by have hleft := hall.2.2; omega, fun hleft => ⟨hstate, hfatal, by omega⟩⟩
    unfold requeue
    split
    · next hleft =>
      rw [if_pos (hresends.mpr hleft)]
      rfl
    · next hdone =>
      rw [if_neg (fun hall => hdone (hresends.mp hall))]
      rfl
  cases sendFileInLoop_cases h with
  | down _ hstate =>
    rw [if_neg (fun hall => hall.1 hstate), if_neg (fun hall => hall.1 hstate)]
    rfl
  | busy _ hstate hbusy =>
    have hmoves : w.moves written = 0 := if_neg hbusy
    have hnext := hrest hstate (fun hdirect => absurd hdirect hbusy)
    rw [if_neg (fun hall => hbusy hall.2.1), List.nil_append]
    rw [hmoves] at hnext
    simpa using hnext
  | bytes n hstate hdirect =>
    have hmoves : w.moves (.bytes n) = n := if_pos hdirect
    have hcompletes : w.Completes count (.bytes n) ↔
        ssize count - n = 0 ∧ w.conn.writeCompleteCallback_ = true := by
      constructor
      · rintro ⟨_, _, hsigned, hall, hset⟩
        have hn := Written.bytes.inj hall
        exact ⟨by omega, hset⟩
      · rintro ⟨hzero, hset⟩
        have hn : (ssize count).toNat = n := by omega
        exact ⟨hstate, hdirect, by omega, by rw [hn], hset⟩
    have hnext := hrest hstate (fun _ => rfl)
    rw [hmoves] at hnext
    rw [left_append, ← hnext]
    congr 1
    by_cases hdone : ssize count - n = 0 ∧ w.conn.writeCompleteCallback_ = true
    · rw [if_pos (hcompletes.mpr hdone), if_pos hdone]
      rfl
    · rw [if_neg (fun hall => hdone (hcompletes.mp hall)), if_neg hdone]
      rfl
  | error errno hstate hdirect =>
    have hmoves : w.moves (.error errno) = 0 := if_pos hdirect
    have hnot : ¬ w.Completes count (.error errno) := fun hall => by cases hall.2.2.2.1
    rw [if_neg hnot, List.nil_append]
    split
    · next hfatal =>
      rw [if_neg (fun hall => by simp [hall.2.1 hdirect] at hfatal)]
      rfl
    · next hfatal =>
      have hnext := hrest hstate (fun _ => by simpa using hfatal)
      rw [hmoves] at hnext
      simpa using hnext

/-- What a call of `sendFileInLoop` sends. -/
theorem fromFile_sendFileInLoop (file : Nat → Text) {w' : World} {fileDescriptor : Nat} {offset : Int}
    {count : Nat} {written : Written} {next : List Act}
    (h : w.sendFileInLoop fileDescriptor offset count written = some (w', next)) :
    w'.conn = w.conn ∧ w'.queued = w.queued ∧
    fromFile file w'.log = fromFile file w.log ++ (if w.conn.state_ = .kDisconnecting then [] else
      (range file fileDescriptor offset count).take (w.moves written)) := by
  cases sendFileInLoop_cases h with
  | down _ hstate => exact ⟨rfl, rfl, by simp [hstate]⟩
  | busy _ _ hbusy =>
    have hmoves : w.moves written = 0 := if_neg hbusy
    exact ⟨rfl, rfl, by simp [hmoves]⟩
  | bytes n hstate hdirect =>
    have hmoves : w.moves (.bytes n) = n := if_pos hdirect
    rw [if_neg hstate, hmoves]
    exact ⟨rfl, rfl, by simp [fromFile, Event.fromFile, Written.taken]⟩
  | error errno hstate hdirect =>
    have hmoves : w.moves (.error errno) = 0 := if_pos hdirect
    rw [if_neg hstate, hmoves]
    exact ⟨rfl, rfl, by simp [fromFile, Event.fromFile, Written.taken]⟩

/-- The kernel takes no more than it is asked to. -/
theorem moves_le {w' : World} {fileDescriptor : Nat} {offset : Int} {count : Nat} {written : Written}
    {next : List Act} (hstate : w.conn.state_ ≠ .kDisconnecting)
    (h : w.sendFileInLoop fileDescriptor offset count written = some (w', next)) : w.moves written ≤ count := by
  cases sendFileInLoop_cases h with
  | down _ hdown => exact absurd hdown hstate
  | busy _ _ hbusy =>
    have hmoves : w.moves written = 0 := if_neg hbusy
    rw [hmoves]
    exact Nat.zero_le _
  | bytes n _ hdirect hpossible =>
    have hmoves : w.moves (.bytes n) = n := if_pos hdirect
    rw [hmoves]
    exact hpossible
  | error errno _ hdirect =>
    have hmoves : w.moves (.error errno) = 0 := if_pos hdirect
    rw [hmoves]
    exact Nat.zero_le _

end World

/-- The front of a range is a range. -/
theorem take_range (file : Nat → Text) (fileDescriptor : Nat) (offset : Int) {count k : Nat} (hk : k ≤ count) :
    (range file fileDescriptor offset count).take k = range file fileDescriptor offset k := by
  rw [range, range, List.take_take, Nat.min_eq_left hk]

/-- A call of `sendFileInLoop`, with the answer of `sendfile` if it asks for one. -/
structure FileCall where
  fileDescriptor : Nat
  offset : Int
  count : Nat
  written : Written

namespace FileCall

def run (w : World) (call : FileCall) : Option (World × List Act) :=
  w.sendFileInLoop call.fileDescriptor call.offset call.count call.written

/-- The callback that the call queues, if it does. -/
def completion (w : World) (call : FileCall) : List Functor :=
  if w.Completes call.count call.written then [.writeCompleteCallback_] else []

/-- What the call queues again, if it does. -/
def again (w : World) (call : FileCall) : List Functor :=
  if w.Resends call.count call.written then [w.rest call.fileDescriptor call.offset call.count call.written] else []

def functor (call : FileCall) : Functor := .sendFileInLoop call.fileDescriptor call.offset call.count

/-- The bytes that the call moves from the file to the socket. -/
def moved (file : Nat → Text) (w : World) (call : FileCall) : List UInt8 :=
  if w.conn.state_ = .kDisconnecting then []
  else (range file call.fileDescriptor call.offset call.count).take (w.moves call.written)

/-- A call that does not find a dead peer moves a first part of its range, and queues a
call for the rest if there is one. -/
theorem moved_again {file : Nat → Text} {w w' : World} (call : FileCall) {next : List Act}
    (hinside : call.functor.Inside file) (hstate : w.conn.state_ ≠ .kDisconnecting)
    (hfatal : 0 < call.count → w.Direct → call.written.isFatal = false) (hrun : call.run w = some (w', next)) :
    w.moves call.written ≤ call.count ∧
    call.moved file w = range file call.fileDescriptor call.offset (w.moves call.written) ∧
    call.again w = if w.moves call.written < call.count then
      [.sendFileInLoop call.fileDescriptor (call.offset + w.moves call.written)
        (call.count - w.moves call.written)] else [] := by
  have hssize : ssize call.count = call.count := ssize_of_inside hinside
  have hle := World.moves_le w hstate hrun
  refine ⟨hle, ?_, ?_⟩
  · rw [moved, if_neg hstate, take_range file call.fileDescriptor call.offset hle]
  · have hresends : w.Resends call.count call.written ↔ w.moves call.written < call.count := by
      constructor
      · rintro ⟨_, _, hleft⟩
        omega
      · intro hleft
        exact ⟨hstate, hfatal (by omega), by omega⟩
    have hrest : (ssize call.count - w.moves call.written).toNat = call.count - w.moves call.written := by omega
    simp only [again, hresends, World.rest, hrest]

end FileCall

namespace Sharing

/-- What a step is, for each branch that is enabled. -/
inductive Stepped (alloc : Nat → Bool) (file : Nat → Text) (s : Sharing) : Share → Sharing → Prop where
  | send (buf : Text) (written : Written) (world : World)
      (hsend : (output alloc).step s.world (.send buf written) = some world) :
      Stepped alloc file s (.send buf written) { s with world, asked := s.asked ++ buf.chars }
  | called (fileDescriptor : Nat) (offset : Int) (count : Nat) (written : Written) (w : World) (next : List Act)
      (hconnected : s.world.conn.connected = true)
      (hcalled : s.world.sendFileInLoop fileDescriptor offset count written = some (w, next)) :
      Stepped alloc file s (.sendFile fileDescriptor offset count written)
        { s with
          world := w.leave next
          late := s.late || next.any Act.leavesFile
          asked := s.asked ++ range file fileDescriptor offset count }
  | ignored (fileDescriptor : Nat) (offset : Int) (count : Nat) (written : Written)
      (hconnected : s.world.conn.connected = false) :
      Stepped alloc file s (.sendFile fileDescriptor offset count written) s
  | handleWrite (written : Written) (world : World) (hwaiting : s.waiting = [])
      (hwrite : (output alloc).step s.world (.handleWrite written) = some world) :
      Stepped alloc file s (.handleWrite written) { s with world }
  | swap (hwaiting : s.waiting = []) : Stepped alloc file s .swap
      { s with world := { s.world with queued := [] }, waiting := s.world.queued, again := false, late := false }
  | functor (written : Written) (functor : Functor) (waiting : List Functor) (w : World) (next : List Act)
      (hwaiting : s.waiting = functor :: waiting) (hcalled : s.world.call alloc written functor = some (w, next)) :
      Stepped alloc file s (.functor written)
        { s with world := w.leave next, waiting, again := s.again || next.any Act.leavesFile }

theorem stepped {alloc : Nat → Bool} {file : Nat → Text} {s t : Sharing} {i : Share}
    (hstep : s.step alloc file i = some t) : Stepped alloc file s i t := by
  cases i with
  | send buf written =>
    obtain ⟨w, hsend, rfl⟩ := Option.map_eq_some_iff.mp hstep
    exact .send buf written w hsend
  | sendFile fileDescriptor offset count written =>
    cases hconnected : s.world.conn.connected with
    | false =>
      simp only [step, World.ownCall, hconnected, Bool.false_eq_true, if_false] at hstep
      cases hstep
      exact .ignored _ _ _ _ hconnected
    | true =>
      simp only [step, World.ownCall, hconnected, if_true, World.call, Option.map_eq_some_iff] at hstep
      obtain ⟨⟨w, next⟩, hcalled, rfl⟩ := hstep
      exact .called _ _ _ _ w next hconnected hcalled
  | handleWrite written =>
    obtain ⟨hwaiting, hwrites⟩ := Option.ite_none_right_eq_some.mp hstep
    obtain ⟨w, hwrite, rfl⟩ := Option.map_eq_some_iff.mp hwrites
    exact .handleWrite written w hwaiting hwrite
  | swap =>
    obtain ⟨hwaiting, rfl⟩ := Option.ite_some_none_eq_some.mp hstep
    exact .swap hwaiting
  | functor written =>
    simp only [step] at hstep
    split at hstep
    · cases hstep
    · next functor waiting hwaiting =>
      obtain ⟨⟨w, next⟩, hcalled, rfl⟩ := Option.map_eq_some_iff.mp hstep
      exact .functor written functor waiting w next hwaiting hcalled

/-- The call of `sendFileInLoop` that a step makes, if it makes one. -/
def fileCall (s : Sharing) : Share → Option FileCall
  | .sendFile fileDescriptor offset count written =>
    if s.world.conn.connected then some { fileDescriptor, offset, count, written } else none
  | .functor written =>
    match s.waiting with
    | .sendFileInLoop fileDescriptor offset count :: _ => some { fileDescriptor, offset, count, written }
    | _ => none
  | _ => none

/-- The files that are not finished, in the order in which the loop comes to them. -/
def pending (s : Sharing) : List Functor := (s.waiting ++ s.world.queued).filter Functor.isFile

/-- Those of them that a step does not run. -/
def behind (s : Sharing) : Share → List Functor
  | .functor _ => s.pending.tail
  | _ => s.pending

/-- Only files and notices are left to the loop. -/
def Plain (s : Sharing) : Prop :=
  ∀ functor ∈ s.waiting ++ s.world.queued, functor.isFile = true ∨ functor.isNotice = true

theorem isFile_eq_false_of_isNotice {functor : Functor} (h : functor.isNotice = true) : functor.isFile = false := by
  cases functor with
  | writeCompleteCallback_ | highWaterMarkCallback_ => rfl
  | _ => cases h

theorem filter_of_isNotice {functors : List Functor} (h : ∀ functor ∈ functors, functor.isNotice = true) :
    functors.filter Functor.isFile = [] := by
  rw [List.filter_eq_nil_iff]
  intro functor hmem
  rw [isFile_eq_false_of_isNotice (h functor hmem)]
  exact Bool.false_ne_true

theorem filter_left (w : World) (call : FileCall) :
    (call.completion w ++ call.again w).filter Functor.isFile = call.again w := by
  unfold FileCall.completion FileCall.again
  split <;> split <;> rfl

/-- What a step does to the files. It makes a call that may queue the rest of its file
again, or leaves all of them alone. -/
inductive FileStep (file : Nat → Text) (s : Sharing) (i : Share) (t : Sharing) : Prop where
  | call (call : FileCall) (w : World) (next : List Act) (hcall : s.fileCall i = some call)
      (hrun : call.run s.world = some (w, next)) (hconn : t.world.conn = s.world.conn)
      (hpending : t.pending = s.behind i ++ call.again s.world)
      (hsent : fromFile file t.world.log = fromFile file s.world.log ++ call.moved file s.world)
  | other (hcall : s.fileCall i = none) (hstate : t.world.conn.state_ = s.world.conn.state_)
      (hsettings : t.world.conn.settings = s.world.conn.settings) (hpending : t.pending = s.pending)
      (hsent : fromFile file t.world.log = fromFile file s.world.log)

end Sharing

/-- What `send`, `shutdown` and `EPOLLOUT` queue are notices, and none of them sends from a file. -/
theorem output_notices (file : Nat → Text) {alloc : Nat → Bool} {w w' : World} {i : Output}
    (hstep : (output alloc).step w i = some w') :
    (i ≠ .shutdown → w'.conn.state_ = w.conn.state_) ∧ w'.conn.settings = w.conn.settings ∧
    fromFile file w'.log = fromFile file w.log ∧
    ∃ functors, w'.queued = w.queued ++ functors ∧ ∀ functor ∈ functors, functor.isNotice = true := by
  obtain ⟨_, hmoved⟩ := Moved.step hstep
  have hignores := fromFile_ignores file
  cases output_outcome hstep with
  | ignored => exact ⟨fun _ => rfl, rfl, rfl, [], (List.append_nil _).symm, by simp⟩
  | sent buf written _ _ hsend =>
    have htransfers := Transfers.sendInLoop hsend
    refine ⟨fun _ => htransfers.state_eq, hmoved.settings_eq, ?_, htransfers.queued⟩
    rw [fromFile, World.flatMap_sendInLoop_of_write hignores (fun _ _ => rfl) hsend]
    simp [fromFile, Event.fromFile]
  | shut =>
    have htransfers := Transfers.shutdownInLoop (w.setState .kDisconnecting)
    refine ⟨fun hnot => absurd rfl hnot, hmoved.settings_eq, ?_, htransfers.queued⟩
    rw [fromFile, flatMap_shutdownInLoop rfl]
    simp [fromFile, Event.fromFile]
  | wrote written u next hwrite =>
    have htransfers := Transfers.handleWrite hwrite
    have hsent : fromFile file u.log = fromFile file w.log :=
      World.flatMap_handleWrite_of_write hignores (fun _ _ => rfl) hwrite
    split
    · have hdrained := htransfers.trans (Transfers.drained u)
      refine ⟨fun _ => hdrained.state_eq, ?_, ?_, hdrained.queued⟩
      · simpa [*] using hmoved.settings_eq
      · rw [← hsent, World.drained]
        split
        · exact flatMap_shutdownInLoop rfl u
        · rfl
    · exact ⟨fun _ => htransfers.state_eq, by simpa [*] using hmoved.settings_eq, hsent, htransfers.queued⟩

namespace Sharing

variable {alloc : Nat → Bool} {file : Nat → Text} {s t : Sharing}

/-- A step that only queues notices. -/
theorem FileStep.of_notices {i : Share} (hcall : s.fileCall i = none) (hwaiting : t.waiting = s.waiting)
    (hstate : t.world.conn.state_ = s.world.conn.state_)
    (hsettings : t.world.conn.settings = s.world.conn.settings)
    (hsent : fromFile file t.world.log = fromFile file s.world.log) {functors : List Functor}
    (hqueued : t.world.queued = s.world.queued ++ functors)
    (hnotices : ∀ functor ∈ functors, functor.isNotice = true) : FileStep file s i t := by
  refine .other hcall hstate hsettings ?_ hsent
  rw [pending, pending, hwaiting, hqueued, ← List.append_assoc, List.filter_append, filter_of_isNotice hnotices,
    List.append_nil]

theorem Plain.of_notices (h : s.Plain) (hwaiting : t.waiting = s.waiting) {functors : List Functor}
    (hqueued : t.world.queued = s.world.queued ++ functors)
    (hnotices : ∀ functor ∈ functors, functor.isNotice = true) : t.Plain := by
  intro functor hmem
  rw [hwaiting, hqueued, ← List.append_assoc, List.mem_append] at hmem
  rcases hmem with hmem | hmem
  · exact h functor hmem
  · exact .inr (hnotices functor hmem)

/-- A call queues what it leaves behind the other files. -/
theorem FileStep.of_call (call : FileCall) {i : Share} {w : World} {next : List Act} {others : List Functor}
    (hcall : s.fileCall i = some call) (hrun : call.run s.world = some (w, next))
    (hothers : (others ++ s.world.queued).filter Functor.isFile = s.behind i)
    (hplain : ∀ functor ∈ others ++ s.world.queued, functor.isFile = true ∨ functor.isNotice = true)
    (hworld : t.world = w.leave next) (hwaiting : t.waiting = others) : FileStep file s i t ∧ t.Plain := by
  obtain ⟨hconn, hqueued, hsent⟩ := World.fromFile_sendFileInLoop s.world file hrun
  have hleft : left next = call.completion s.world ++ call.again s.world := World.left_sendFileInLoop s.world hrun
  have hqueue : t.world.queued = s.world.queued ++ (call.completion s.world ++ call.again s.world) := by
    rw [hworld, World.queued_leave, hqueued, hleft]
  refine ⟨.call call w next hcall hrun ?_ ?_ ?_, ?_⟩
  · rw [hworld, World.conn_leave, hconn]
  · rw [pending, hwaiting, hqueue, ← List.append_assoc, List.filter_append, hothers, filter_left]
  · rw [hworld, fromFile, World.flatMap_leave _ (fromFile_ignores file)]
    exact hsent
  · intro functor hmem
    rw [hwaiting, hqueue, ← List.append_assoc, List.mem_append] at hmem
    rcases hmem with hmem | hmem
    · exact hplain functor hmem
    · unfold FileCall.completion FileCall.again at hmem
      rcases List.mem_append.mp hmem with hmem | hmem
      · split at hmem
        · exact .inr (by rw [List.mem_singleton.mp hmem]; rfl)
        · cases hmem
      · split at hmem
        · exact .inl (by rw [List.mem_singleton.mp hmem]; rfl)
        · cases hmem

/-- Every step makes a call on a file, or leaves the files alone. -/
theorem Plain.step (h : s.Plain) {i : Share} (hstep : s.step alloc file i = some t) :
    FileStep file s i t ∧ t.Plain := by
  cases stepped hstep with
  | send buf written w hsend =>
    obtain ⟨hstate, hsettings, hsent, functors, hqueued, hnotices⟩ :=
      output_notices (i := .send buf written) file hsend
    exact ⟨.of_notices rfl rfl (hstate (by simp)) hsettings hsent hqueued hnotices,
      h.of_notices rfl hqueued hnotices⟩
  | called fileDescriptor offset count written w next hconnected hcalled =>
    refine FileStep.of_call { fileDescriptor, offset, count, written } ?_ hcalled rfl h rfl rfl
    simp only [fileCall, hconnected, if_true]
  | ignored fileDescriptor offset count written hconnected =>
    have hcall : s.fileCall (.sendFile fileDescriptor offset count written) = none := by
      simp only [fileCall, hconnected, Bool.false_eq_true, if_false]
    exact ⟨.of_notices hcall rfl rfl rfl rfl (List.append_nil _).symm (by simp), h⟩
  | handleWrite written w _ hwrite =>
    obtain ⟨hstate, hsettings, hsent, functors, hqueued, hnotices⟩ :=
      output_notices (i := .handleWrite written) file hwrite
    exact ⟨.of_notices rfl rfl (hstate (by simp)) hsettings hsent hqueued hnotices,
      h.of_notices rfl hqueued hnotices⟩
  | swap hwaiting =>
    refine ⟨.other rfl rfl rfl ?_ rfl, ?_⟩
    · simp only [pending, hwaiting, List.append_nil, List.nil_append]
    · intro functor hmem
      refine h functor ?_
      simpa [hwaiting] using hmem
  | functor written functor waiting w next hwaiting hcalled =>
    have hrest (other : Functor) (hmem : other ∈ waiting ++ s.world.queued) :
        other.isFile = true ∨ other.isNotice = true := by
      apply h
      rw [hwaiting]
      exact List.mem_cons_of_mem _ hmem
    rcases h functor (by rw [hwaiting]; exact List.mem_cons_self ..) with hfile | hnotice
    · cases functor with
      | sendFileInLoop fileDescriptor offset count =>
        refine FileStep.of_call { fileDescriptor, offset, count, written } ?_ hcalled ?_ hrest rfl rfl
        · simp only [fileCall, hwaiting]
        · simp only [behind, pending, hwaiting]
          rfl
      | _ => cases hfile
    · obtain ⟨rfl, rfl⟩ := called_notice hnotice hcalled
      have hcall : s.fileCall (.functor written) = none := by
        simp only [fileCall, hwaiting]
        cases functor with
        | sendFileInLoop => cases hnotice
        | _ => rfl
      refine ⟨.other hcall rfl rfl ?_ rfl, hrest⟩
      simp only [pending, hwaiting, List.cons_append, List.filter_cons, isFile_eq_false_of_isNotice hnotice,
        Bool.false_eq_true, if_false]
      rfl

/-- The loop runs the first of the files that are not finished. -/
theorem pending_of_functor {written : Written} {call : FileCall}
    (hcall : s.fileCall (.functor written) = some call) :
    call.written = written ∧ s.pending = call.functor :: s.behind (.functor written) := by
  simp only [fileCall] at hcall
  split at hcall
  · next fileDescriptor offset count waiting hwaiting =>
    cases hcall
    refine ⟨rfl, ?_⟩
    simp only [behind, pending, hwaiting]
    rfl
  · cases hcall

end Sharing

end muduo.tcp_connection
