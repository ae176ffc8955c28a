import Mathlib.Data.Fintype.Basic
import Muduo.TcpConnection.Stream
import Muduo.EventLoop.Basic

open transition record
open muduo.kernel muduo.buffer muduo.epoll muduo.event_loop

namespace muduo.tcp_connection

/-- The memory that is allocated, by address. -/
abbrev Memory := Nat → Option UInt8

namespace Memory

/-- The string of `len` bytes at an address, if all of it is allocated. -/
def text (memory : Memory) (data len : Nat) : Option Text :=
  ((List.range' data len).mapM memory).bind fun chars =>
    if h : chars.length ≤ maxSize then some ⟨chars, h⟩ else none

/-- Bytes are written, or what they stand in is allocated or freed. -/
def store (memory : Memory) (cells : List (Nat × Option UInt8)) : Memory :=
  cells.foldl (fun memory cell => Function.update memory cell.1 cell.2) memory

end Memory

/-- What `send` binds on a thread other than the loop's: the address of the characters
of a string of the caller, and its size. `buf` records what the string held then. -/
structure Bound where
  data : Nat
  len : Nat
  buf : Text
  deriving DecidableEq

/-- The bytes that the string held when it was bound are still behind the address. -/
def Bound.Holds (bound : Bound) (memory : Memory) : Prop := memory.text bound.data bound.len = some bound.buf

instance (bound : Bound) (memory : Memory) : Decidable (bound.Holds memory) :=
  inferInstanceAs (Decidable (memory.text bound.data bound.len = some bound.buf))

/-- The bytes behind the address, given what is found there when they have been freed. -/
def Bound.read (bound : Bound) (garbage : Text) (memory : Memory) : Text :=
  (memory.text bound.data bound.len).getD garbage

/-- The functors of the loop: a `sendInLoop` of another thread, or any other one. -/
inductive Parcel where
  | sendInLoop (bound : Bound)
  | other
  deriving DecidableEq

def Parcel.bound : Parcel → List Bound
  | .sendInLoop bound => [bound]
  | .other => []

/-- A connection and its loop among threads that send from their strings. `due` is the
`sendInLoop` that the loop has entered and not executed, `callers` tells who is between
the binding and the push of `send`, and `handed` records for each executed one what its
string held at the call, and how it called `write` and appended to `outputBuffer_`. -/
structure Sending (T : Type) where
  thread : LoopThread Parcel Unit
  due : Option Bound
  world : World
  callers : T → Option Bound
  memory : Memory
  handed : List (Text × List Event)

/-- A step: of the loop's thread between bodies, in a queued `sendInLoop`, or in any
other code of the connection; of another thread in `send`; or of any thread in memory. -/
inductive SendInput (T : Type) where
  | advance (a : Advance Unit)
  | sendInLoop (garbage : Text) (written : Written)
  | act (a : Act) (received : Received) (written : Written)
  | queueOther (isInLoopThread : Bool)
  | test (t : T) (data len : Nat)
  | queue (t : T)
  | store (cells : List (Nat × Option UInt8))

/-- A call of `write`, or an append to `outputBuffer_`. -/
def Event.hands : Event → Bool
  | .write _ _ => true
  | .append _ => true
  | _ => false

namespace Sending

variable {T : Type}

def start (conn : TcpConnection) (poller : EPollPoller) (memory : Memory) : Sending T where
  thread := .construct
  due := none
  world := { conn, poller, queued := [], log := [] }
  callers := fun _ => none
  memory
  handed := []

/-- The `sendInLoop` that the loop has just entered. -/
def entered : Location Parcel Unit → Option Bound
  | .running (.sendInLoop bound) _ => some bound
  | _ => none

def queueInLoop (s : Sending T) (isInLoopThread : Bool) (parcel : Parcel) : Sending T :=
  { s with thread := { s.thread with loop := s.thread.loop.queueInLoop isInLoopThread parcel } }

/-- Go on after the connection's code has worked on its world. -/
def resume (s : Sending T) (w : World) : Sending T :=
  w.queued.foldl (fun s _ => s.queueInLoop true .other) { s with world := { w with queued := [] } }

def step [DecidableEq T] (alloc : Nat → Bool) (s : Sending T) : SendInput T → Option (Sending T)
  | .advance a =>
    if s.due = none then (s.thread.advance a).map fun thread => { s with thread, due := entered thread.at_ }
    else none
  | .sendInLoop garbage written =>
    match s.due with
    | some bound =>
      -- the functor reads the bytes for `write` and again for `outputBuffer_`: a change in
      -- between is one while it has not run, which `LeavesBytes` does not allow either
      if garbage.chars.length = bound.len then
        (s.world.sendInLoop alloc (bound.read garbage s.memory) written).map fun w =>
          { s.resume w with
            due := none
            handed := s.handed ++ [(bound.buf, (w.log.drop s.world.log.length).filter Event.hands)] }
      else none
    | none => none
  | .act a received written =>
    if s.due = none then (s.world.act alloc received written a).map fun (w, _) => s.resume w else none
  | .queueOther isInLoopThread => some (s.queueInLoop isInLoopThread .other)
  | .test t data len =>
    match s.callers t, s.memory.text data len with
    | none, some buf =>
      if s.world.conn.connected then some { s with callers := Function.update s.callers t (some ⟨data, len, buf⟩) }
      else some s
    | _, _ => none
  | .queue t =>
    match s.callers t with
    | some bound =>
      some { s.queueInLoop false (.sendInLoop bound) with callers := Function.update s.callers t none }
    | none => none
  | .store cells => some { s with memory := s.memory.store cells }

/-- The `sendInLoop` functors that are queued or entered. -/
def outstanding (s : Sending T) : List Bound := s.due.toList ++ s.thread.queue.flatMap Parcel.bound

end Sending

/-- Every interleaving of a connection's loop with threads that send from their strings,
and with whatever happens to the memory of the process. -/
def sending (T : Type) [DecidableEq T] (alloc : Nat → Bool) : Machine (Sending T) (SendInput T) where
  step := Sending.step alloc

/-- From the moment when `send` takes the address of the characters until its functor
has run, the bytes behind that address stay allocated and are not changed. -/
def LeavesBytes {T : Type} (s : Sending T) : SendInput T → Prop
  | .store cells => (∀ bound ∈ s.outstanding, bound.Holds (s.memory.store cells)) ∧
      ∀ t, ∀ bound ∈ s.callers t, bound.Holds (s.memory.store cells)
  | _ => True

instance {T : Type} [Fintype T] (s : Sending T) : ∀ i : SendInput T, Decidable (LeavesBytes s i)
  | .store cells => inferInstanceAs (Decidable ((∀ bound ∈ s.outstanding, bound.Holds (s.memory.store cells)) ∧
      ∀ t, ∀ bound ∈ s.callers t, bound.Holds (s.memory.store cells)))
  | .advance _ | .sendInLoop _ _ | .act _ _ _ | .queueOther _ | .test _ _ _ | .queue _ =>
    inferInstanceAs (Decidable True)

/-- How the code calls `write` and appends to `outputBuffer_` on its way from one world
to another one. -/
def Hands (w w' : World) (handed : List Event) : Prop :=
  ∃ events, w'.log = w.log ++ events ∧ events.filter Event.hands = handed

namespace Hands

theorem refl (w : World) : Hands w w [] := ⟨[], by simp, rfl⟩

theorem emit (w : World) (event : Event) : Hands w (w.emit event) ([event].filter Event.hands) :=
  ⟨[event], rfl, rfl⟩

theorem trans {w w' w'' : World} {handed more : List Event} (h : Hands w w' handed)
    (h' : Hands w' w'' more) : Hands w w'' (handed ++ more) := by
  obtain ⟨events, hlog, rfl⟩ := h
  obtain ⟨events', hlog', rfl⟩ := h'
  exact ⟨events ++ events', by rw [hlog', hlog, List.append_assoc], List.filter_append events events'⟩

theorem writeCompleted (w : World) : Hands w w.writeCompleted [] := by
  unfold World.writeCompleted
  split
  · exact emit w (.queueInLoop .writeCompleteCallback_)
  · exact refl w

theorem highWater (w : World) (len : Nat) : Hands w (w.highWater len) [] := by
  simp only [World.highWater]
  split
  · exact emit w (.queueInLoop _)
  · exact refl w

theorem watchWriting (w : World) : Hands w w.watchWriting [] := by
  unfold World.watchWriting
  split
  · exact refl w
  · exact ⟨_, World.log_perform w .enableWriting, rfl⟩

theorem keep {alloc : Nat → Bool} {w w' : World} {rest : List UInt8} (h : w.keep alloc rest = some w') :
    Hands w w' (if rest = [] then [] else [.append rest]) := by
  rcases World.keep_cases h with ⟨rfl, rfl⟩ | ⟨hrest, outputBuffer_, _, rfl⟩
  · exact refl _
  · rw [if_neg (List.length_pos_iff.mp hrest)]
    have hstore : Hands (w.highWater rest.length) ((w.highWater rest.length).setOutputBuffer outputBuffer_) [] :=
      ⟨[], by simp, rfl⟩
    exact ((highWater w rest.length).trans hstore).trans ((emit _ (.append rest)).trans (watchWriting _))

theorem writeDirectly (w : World) (data : List UInt8) (written : Written) :
    Hands w (w.writeDirectly data written) [.write data written] := by
  have hwrite := emit w (.write data written)
  unfold World.writeDirectly
  simp only
  split
  · exact hwrite.trans (writeCompleted _)
  · exact hwrite

end Hands

/-- How a payload is handed over. `outputBuffer_` keeps all of it, unless it is empty; or
`write` is called with all of it and answers, and `outputBuffer_` keeps what the kernel has
not taken, unless the peer is gone or nothing is left. -/
inductive Transmitted (buf : Text) : List Event → Prop where
  | nothing (hempty : buf.chars = []) : Transmitted buf []
  | kept (hsome : buf.chars ≠ []) : Transmitted buf [.append buf.chars]
  | written {written : Written} (hpossible : written.Possible buf.chars.length)
      (hdone : written.isFatal = true ∨ buf.chars.drop written.taken = []) : Transmitted buf [.write buf.chars written]
  | rest {written : Written} (hpossible : written.Possible buf.chars.length) (hfatal : written.isFatal = false)
      (hrest : buf.chars.drop written.taken ≠ []) :
      Transmitted buf [.write buf.chars written, .append (buf.chars.drop written.taken)]

/-- `sendInLoop` hands over the bytes that it is called with, each of them once. -/
theorem hands_sendInLoop {alloc : Nat → Bool} {w w' : World} {data : Text} {written : Written}
    (h : w.sendInLoop alloc data written = some w') :
    ∃ handed, Hands w w' handed ∧ Transmitted data handed := by
  have hemit := Hands.emit w (.sendInLoop data)
  have hdirect := hemit.trans (Hands.writeDirectly _ data.chars written)
  rcases World.sendInLoop_cases h with ⟨_, hpossible, ⟨hfatal, rfl⟩ | ⟨hfatal, hkeep⟩⟩ | ⟨_, hkeep⟩
  · exact ⟨_, hdirect, .written hpossible (.inl hfatal)⟩
  · refine ⟨_, hdirect.trans (Hands.keep hkeep), ?_⟩
    split
    · next hrest => exact .written hpossible (.inr hrest)
    · next hrest => exact .rest hpossible hfatal hrest
  · refine ⟨_, hemit.trans (Hands.keep hkeep), ?_⟩
    split
    · next hempty => exact .nothing hempty
    · next hsome => exact .kept hsome

theorem Bound.read_of_holds {bound : Bound} {memory : Memory} (h : bound.Holds memory) (garbage : Text) :
    bound.read garbage memory = bound.buf := by
  rw [Bound.read, show memory.text bound.data bound.len = some bound.buf from h]
  rfl

namespace Sending

variable {T : Type}

theorem outstanding_queueInLoop (s : Sending T) (isInLoopThread : Bool) (parcel : Parcel) :
    (s.queueInLoop isInLoopThread parcel).outstanding = s.outstanding ++ parcel.bound := by
  simp [outstanding, queueInLoop, LoopThread.queue]

/-- The connection's own code queues no `sendInLoop`, and leaves the strings alone. -/
theorem resume_spec (s : Sending T) (w : World) :
    (s.resume w).outstanding = s.outstanding ∧ (s.resume w).callers = s.callers ∧
      (s.resume w).memory = s.memory ∧ (s.resume w).handed = s.handed ∧
      (s.resume w).thread.queue.flatMap Parcel.bound = s.thread.queue.flatMap Parcel.bound := by
  have hfold (functors : List Functor) (u : Sending T) (hqueue : u.thread.queue.flatMap Parcel.bound =
      s.thread.queue.flatMap Parcel.bound) (hdue : u.due = s.due) (hcallers : u.callers = s.callers)
      (hmemory : u.memory = s.memory) (hhanded : u.handed = s.handed) :
      let v := functors.foldl (fun s _ => s.queueInLoop true .other) u
      v.due = s.due ∧ v.callers = s.callers ∧ v.memory = s.memory ∧ v.handed = s.handed ∧
        v.thread.queue.flatMap Parcel.bound = s.thread.queue.flatMap Parcel.bound := by
    induction functors generalizing u with
    | nil => exact ⟨hdue, hcallers, hmemory, hhanded, hqueue⟩
    | cons functor functors ih =>
      refine ih _ ?_ hdue hcallers hmemory hhanded
      simpa [queueInLoop, LoopThread.queue, Parcel.bound] using hqueue
  obtain ⟨hdue, hcallers, hmemory, hhanded, hqueue⟩ :=
    hfold w.queued { s with world := { w with queued := [] } } rfl rfl rfl rfl rfl
  refine ⟨?_, hcallers, hmemory, hhanded, hqueue⟩
  unfold outstanding resume
  rw [hdue, hqueue]

/-- Every functor that is outstanding, and every one that is about to be queued,
points to the bytes that it was bound to, and no other bytes have been handed over. -/
structure Safe (s : Sending T) : Prop where
  held : ∀ bound ∈ s.outstanding, bound.Holds s.memory
  calling : ∀ t, ∀ bound ∈ s.callers t, bound.Holds s.memory
  transmitted : ∀ p ∈ s.handed, Transmitted p.1 p.2

theorem Safe.start (conn : TcpConnection) (poller : EPollPoller) (memory : Memory) :
    Safe (start conn poller memory : Sending T) :=
  ⟨by simp [Sending.start, outstanding, LoopThread.construct, LoopThread.queue, Location.waiting,
    EventLoop.construct], by simp [Sending.start], by simp [Sending.start]⟩

/-- A step that binds nothing, and leaves the strings alone. -/
theorem Safe.of_same {s t : Sending T} (h : Safe s) (houtstanding : ∀ bound ∈ t.outstanding, bound ∈ s.outstanding)
    (hcallers : t.callers = s.callers) (hmemory : t.memory = s.memory) (hhanded : t.handed = s.handed) : Safe t := by
  obtain ⟨hheld, hcalling, htransmitted⟩ := h
  refine ⟨?_, ?_, ?_⟩
  · intro bound hmem
    rw [hmemory]
    exact hheld bound (houtstanding bound hmem)
  · rw [hcallers, hmemory]
    exact hcalling
  · rw [hhanded]
    exact htransmitted

/-- The loop's thread takes what is queued in front, and enters it. -/
theorem outstanding_advance {s : Sending T} {a : Advance Unit} {thread : LoopThread Parcel Unit}
    (hdue : s.due = none) (hadvance : s.thread.advance a = some thread) :
    outstanding { s with thread, due := entered thread.at_ } = s.outstanding := by
  unfold outstanding
  rw [hdue]
  rcases LoopThread.queue_advance hadvance with ⟨hqueue, hidle⟩ | ⟨parcel, rest, hqueue, hrunning⟩
  · have hnone : entered thread.at_ = none := by
      unfold entered
      split
      · next hat => exact absurd hat (hidle _ _)
      · rfl
    simp only [hnone, hqueue]
  · simp only [hqueue, hrunning, List.flatMap_cons]
    cases parcel <;> rfl

/-- A run of a queued `sendInLoop` reads what its string held at the call. -/
theorem Safe.sendInLoop {alloc : Nat → Bool} {s : Sending T} (h : Safe s) {bound : Bound} {garbage : Text}
    {written : Written} {w : World} (hdue : s.due = some bound)
    (hsend : s.world.sendInLoop alloc (bound.read garbage s.memory) written = some w) :
    Safe { s.resume w with
      due := none
      handed := s.handed ++ [(bound.buf, (w.log.drop s.world.log.length).filter Event.hands)] } := by
  obtain ⟨_, hcallers, hmemory, _, hqueue⟩ := s.resume_spec w
  have hmem : bound ∈ s.outstanding := by simp [outstanding, hdue]
  rw [Bound.read_of_holds (h.held bound hmem)] at hsend
  obtain ⟨handed, ⟨events, hlog, hhanded⟩, htransmitted⟩ := hands_sendInLoop hsend
  refine ⟨?_, ?_, ?_⟩
  · intro other hother
    have hother' : other ∈ (s.resume w).thread.queue.flatMap Parcel.bound := by
      simpa [outstanding, LoopThread.queue] using hother
    rw [hqueue] at hother'
    simp only [hmemory]
    exact h.held other (List.mem_append_right _ hother')
  · simp only [hcallers, hmemory]
    exact h.calling
  · intro p hp
    rcases List.mem_append.mp hp with hp | hp
    · exact h.transmitted p hp
    · obtain rfl := List.mem_singleton.mp hp
      simp only [hlog, List.drop_left, hhanded]
      exact htransmitted

/-- A thread takes the address and the size of its string. -/
theorem Safe.bind [DecidableEq T] {s : Sending T} (h : Safe s) (t : T) {bound : Bound} (hbound : bound.Holds s.memory) :
    Safe { s with callers := Function.update s.callers t (some bound) } := by
  refine ⟨h.held, ?_, h.transmitted⟩
  intro other another hcalling
  by_cases hother : other = t
  · subst hother
    simp only [Function.update_self, Option.mem_some_iff] at hcalling
    subst hcalling
    exact hbound
  · simp only [Function.update_of_ne hother] at hcalling
    exact h.calling other another hcalling

/-- A thread pushes the functor that it has bound. -/
theorem Safe.queue [DecidableEq T] {s : Sending T} (h : Safe s) {t : T} {bound : Bound}
    (hcaller : s.callers t = some bound) :
    Safe { s.queueInLoop false (.sendInLoop bound) with callers := Function.update s.callers t none } := by
  refine ⟨?_, ?_, h.transmitted⟩
  · intro other hmem
    have hmem' : other ∈ (s.queueInLoop false (.sendInLoop bound)).outstanding := hmem
    rw [outstanding_queueInLoop] at hmem'
    rcases List.mem_append.mp hmem' with hmem' | hmem'
    · exact h.held other hmem'
    · obtain rfl := List.mem_singleton.mp hmem'
      exact h.calling t other hcaller
  · intro other another hcalling
    by_cases hother : other = t
    · subst hother
      simp at hcalling
    · simp only [Function.update_of_ne hother] at hcalling
      exact h.calling other another hcalling

/-- Each step that leaves the bytes alone keeps the payloads safe. -/
theorem Safe.step [DecidableEq T] {alloc : Nat → Bool} {s t : Sending T} {i : SendInput T} (h : Safe s)
    (hok : LeavesBytes s i) (hstep : s.step alloc i = some t) : Safe t := by
  cases i with
  | advance a =>
    simp only [Sending.step] at hstep
    split at hstep
    · next hdue =>
      obtain ⟨thread, hadvance, rfl⟩ := Option.map_eq_some_iff.mp hstep
      exact h.of_same (fun bound hmem => by rwa [outstanding_advance hdue hadvance] at hmem) rfl rfl rfl
    · cases hstep
  | sendInLoop garbage written =>
    simp only [Sending.step] at hstep
    split at hstep
    · next bound hdue =>
      split at hstep
      · obtain ⟨w, hsend, rfl⟩ := Option.map_eq_some_iff.mp hstep
        exact h.sendInLoop hdue hsend
      · cases hstep
    · cases hstep
  | act a received written =>
    simp only [Sending.step] at hstep
    split at hstep
    · obtain ⟨⟨w, next⟩, _, rfl⟩ := Option.map_eq_some_iff.mp hstep
      obtain ⟨houtstanding, hcallers, hmemory, hhanded, _⟩ := s.resume_spec w
      exact h.of_same (fun bound hmem => by rwa [houtstanding] at hmem) hcallers hmemory hhanded
    · cases hstep
  | queueOther isInLoopThread =>
    cases hstep
    refine h.of_same (fun bound hmem => ?_) rfl rfl rfl
    rw [outstanding_queueInLoop] at hmem
    simpa [Parcel.bound] using hmem
  | test t data len =>
    simp only [Sending.step] at hstep
    split at hstep
    · next buf _ hbuf =>
      split at hstep
      · cases hstep
        exact h.bind t hbuf
      · cases hstep
        exact h
    · cases hstep
  | queue t =>
    simp only [Sending.step] at hstep
    split at hstep
    · next bound hcaller =>
      cases hstep
      exact h.queue hcaller
    · cases hstep
  | store cells =>
    cases hstep
    exact ⟨hok.1, hok.2, h.transmitted⟩

end Sending

/-- A cross-thread `send` transmits the caller's bytes: in every run in which the bytes
behind the address that `send` takes are left alone until the functor has run, every
queued `sendInLoop` hands to `write` and to `outputBuffer_` exactly what the string held
when `send` was called. -/
theorem send_transmits_payload {T : Type} [DecidableEq T] {alloc : Nat → Bool} {conn : TcpConnection}
    {poller : EPollPoller} {memory : Memory} {s : Sending T}
    (hrun : (sending T alloc).Steps LeavesBytes (Sending.start conn poller memory) s) :
    ∀ p ∈ s.handed, Transmitted p.1 p.2 :=
  (hrun.invariant (fun _ _ _ (h : Sending.Safe _) hok hstep => h.step hok hstep)
    (.start conn poller memory)).transmitted

/-- The message that a thread sends. -/
def message : Text := ⟨[104, 105], by decide⟩

/-- The string of the message, in an allocation of four bytes. -/
def messageMemory : Memory := fun data => ([104, 105, 0, 0] : List UInt8)[data]?

/-- A connection that is connected, with its channel registered for reading. -/
def connectedWorld : World := (World.connectEstablished ⟨.construct 1 5, .construct, [], []⟩).1

/-- A thread sends its string, and something is done in memory before the loop runs the functor. -/
def sendThenStore (cells : List (Nat × Option UInt8)) : List (SendInput Unit) :=
  [.test () 0 2, .queue (), .store cells, .advance .enter, .advance .test, .advance (.poll []),
    .advance .beginFunctors, .advance .swap, .advance .take, .sendInLoop ⟨[0, 0], by decide⟩ (.error .EWOULDBLOCK)]

/-- A third character is appended to the string, where it is: its allocation has room for it. -/
theorem send_transmits_payload_appended :
    ∃ s, (sending Unit fun _ => true).run
        (Sending.start connectedWorld.conn connectedWorld.poller messageMemory) (sendThenStore [(2, some 33)]) = some s ∧
      ∀ p ∈ s.handed, Transmitted p.1 p.2 := by
  have hruns : ((sending Unit fun _ => true).run
      (Sending.start connectedWorld.conn connectedWorld.poller messageMemory)
      (sendThenStore [(2, some 33)])).isSome = true := by
    decide +kernel
  obtain ⟨s, hrun⟩ := Option.isSome_iff_exists.mp hruns
  exact ⟨s, hrun, send_transmits_payload (Machine.steps_of_run hrun (by decide +kernel))⟩

/-- The string is overwritten where it is: the bytes of the new contents are handed over. -/
theorem send_transmits_other_bytes :
    ∃ s, (sending Unit fun _ => true).run
        (Sending.start connectedWorld.conn connectedWorld.poller messageMemory)
        (sendThenStore [(0, some 110), (1, some 111)]) = some s ∧
      s.handed = [(message, [.write [110, 111] (.error .EWOULDBLOCK), .append [110, 111]])] ∧
      ¬ ∀ p ∈ s.handed, Transmitted p.1 p.2 := by
  have hruns : ((sending Unit fun _ => true).run
      (Sending.start connectedWorld.conn connectedWorld.poller messageMemory)
      (sendThenStore [(0, some 110), (1, some 111)])).map Sending.handed =
        some [(message, [.write [110, 111] (.error .EWOULDBLOCK), .append [110, 111]])] := by
    decide +kernel
  obtain ⟨s, hrun, hhanded⟩ := Option.map_eq_some_iff.mp hruns
  refine ⟨s, hrun, hhanded, ?_⟩
  intro hall
  have hpair := hall (message, [.write [110, 111] (.error .EWOULDBLOCK), .append [110, 111]]) (by rw [hhanded]; simp)
  cases hpair

/-- A string that outgrows its allocation frees what `send` has bound, and the functor
finds whatever is there. -/
example : ((sending Unit fun _ => true).run
    (Sending.start connectedWorld.conn connectedWorld.poller messageMemory)
    (sendThenStore [(0, none), (1, none), (2, none), (3, none), (8, some 104), (9, some 105)])).map Sending.handed =
      some [(message, [.write [0, 0] (.error .EWOULDBLOCK), .append [0, 0]])] := by
  decide +kernel

end muduo.tcp_connection
