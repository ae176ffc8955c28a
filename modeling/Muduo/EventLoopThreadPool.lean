import Muduo.Library.Rotation
import Muduo.Library.Text
import Muduo.Library.Transition

open rotation text transition

namespace muduo.event_loop_thread_pool

/-- The largest `int`. -/
def intMax : Nat := 2 ^ 31 - 1

/-- An `int` converted to `size_t`, for an index and for a comparison with a size. -/
def toSize (n : BitVec 32) : Nat := (n.signExtend 64).toNat

/-- `++n` on an `int`, which is undefined at the largest one. -/
def increment (n : BitVec 32) : Option (BitVec 32) :=
  if n.toInt < intMax then some (n + 1) else none

/-- What the pool gives a thread: a callback, if there is one, and a name. -/
structure EventLoopThread where
  callback_ : Bool
  name : List Char
  deriving DecidableEq

/-- A pool over loops `L`. -/
structure EventLoopThreadPool (L : Type) where
  baseLoop_ : L
  name_ : List Char
  started_ : Bool
  numThreads_ : BitVec 32
  next_ : BitVec 32
  threads_ : List EventLoopThread
  loops_ : List L
  deriving DecidableEq

namespace EventLoopThreadPool

variable {L : Type}

def construct (baseLoop : L) (nameArg : List Char) : EventLoopThreadPool L where
  baseLoop_ := baseLoop
  name_ := nameArg
  started_ := false
  numThreads_ := 0
  next_ := 0
  threads_ := []
  loops_ := []

def setThreadNum (self : EventLoopThreadPool L) (numThreads : BitVec 32) : EventLoopThreadPool L :=
  { self with numThreads_ := numThreads }

/-- A turn of the loop of `start`, in which `startLoop()` returns `loop`. -/
def startThread (self : EventLoopThreadPool L) (cb : Bool) (i : Nat) (loop : L) : EventLoopThreadPool L :=
  let buf := snprintf (self.name_.length + 32) (cString self.name_ ++ decimalInt i)
  { self with
    threads_ := self.threads_ ++ [{ callback_ := cb, name := cString buf }]
    loops_ := self.loops_ ++ [loop] }

/-- The turns of the loop of `start` from thread `i` on, one for each loop returned. -/
def startThreads (cb : Bool) : EventLoopThreadPool L → Nat → List L → EventLoopThreadPool L
  | self, _, [] => self
  | self, i, loop :: loops => startThreads cb (self.startThread cb i loop) (i + 1) loops

/-- `start`, with the loops that the new threads return and the loop on which `cb` is
called here, if any. -/
def start (self : EventLoopThreadPool L) (cb : Bool) (loops : List L) : EventLoopThreadPool L × Option L :=
  let self := startThreads cb { self with started_ := true } 0 loops
  (self, if self.numThreads_ = 0 ∧ cb then some self.baseLoop_ else none)

/-- `getNextLoop`. An index beyond the loops and an overflow of `next_` are undefined. -/
def getNextLoop (self : EventLoopThreadPool L) : Option (L × EventLoopThreadPool L) :=
  if self.loops_.isEmpty then some (self.baseLoop_, self)
  else do
    let loop ← self.loops_[toSize self.next_]?
    let next_ ← increment self.next_
    some (loop, { self with next_ := if self.loops_.length ≤ toSize next_ then 0 else next_ })

def getAllLoops (self : EventLoopThreadPool L) : List L :=
  if self.loops_.isEmpty then [self.baseLoop_] else self.loops_

/-- `next_` is the index of a loop. -/
def InRange (self : EventLoopThreadPool L) : Prop :=
  0 ≤ self.next_.toInt ∧ self.next_.toInt < self.loops_.length

/-- What holds of every pool. Its loops are different objects, no more than there can be
threads, and the index is 0 as long as there are none. -/
structure Sound (pool : EventLoopThreadPool L) : Prop where
  distinct : pool.loops_.Nodup
  length_le : pool.loops_.length ≤ intMax
  next_lt : pool.next_ = 0 ∨ pool.next_.toNat < pool.loops_.length

theorem Sound.construct (baseLoop : L) (nameArg : List Char) : Sound (construct baseLoop nameArg) :=
  ⟨List.nodup_nil, Nat.zero_le _, .inl rfl⟩

theorem Sound.next_toNat_lt {self : EventLoopThreadPool L} (h : self.Sound) (hloops : self.loops_ ≠ []) :
    self.next_.toNat < self.loops_.length := by
  rcases h.next_lt with hzero | hlt
  · rw [hzero]
    exact List.length_pos_iff.mpr hloops
  · exact hlt

end EventLoopThreadPool

/-- As a number a small `int` is its bits. -/
theorem toInt_eq {n : BitVec 32} (hsmall : n.toNat ≤ intMax) : n.toInt = n.toNat := by
  unfold intMax at hsmall
  exact BitVec.toInt_eq_toNat_of_lt (by omega)

/-- Converted to `size_t` a small `int` keeps its value. -/
theorem toSize_eq {n : BitVec 32} (hsmall : n.toNat ≤ intMax) : toSize n = n.toNat := by
  have hmsb : n.msb = false := by
    unfold intMax at hsmall
    rw [BitVec.msb_eq_false_iff_two_mul_lt]
    omega
  rw [toSize, BitVec.signExtend_eq_setWidth_of_msb_false hmsb, BitVec.toNat_setWidth]
  omega

theorem increment_eq {n : BitVec 32} (hsmall : n.toNat < intMax) :
    ∃ m, increment n = some m ∧ m.toNat = n.toNat + 1 := by
  have hint := toInt_eq (Nat.le_of_lt hsmall)
  refine ⟨n + 1, if_pos (by omega), ?_⟩
  unfold intMax at hsmall
  rw [BitVec.toNat_add]
  exact Nat.mod_eq_of_lt (by simp; omega)

namespace EventLoopThreadPool

variable {L : Type}

theorem Sound.inRange {self : EventLoopThreadPool L} (h : self.Sound) (hloops : self.loops_ ≠ []) :
    self.InRange := by
  have hlt := h.next_toNat_lt hloops
  have hint := toInt_eq (Nat.le_of_lt (Nat.lt_of_lt_of_le hlt h.length_le))
  exact ⟨by omega, by omega⟩

/-- With no loop of its own the pool hands out the base loop. -/
theorem getNextLoop_base {self : EventLoopThreadPool L} (hloops : self.loops_ = []) :
    self.getNextLoop = some (self.baseLoop_, self) := by
  rw [getNextLoop, hloops]
  rfl

/-- Otherwise it hands out the loop at the index, which goes round. -/
theorem getNextLoop_eq {self : EventLoopThreadPool L} (h : self.Sound) (hloops : self.loops_ ≠ []) :
    ∃ loop next_, self.loops_[self.next_.toNat]? = some loop ∧
      self.getNextLoop = some (loop, { self with next_ }) ∧
      next_.toNat = (self.next_.toNat + 1) % self.loops_.length := by
  have hlt := h.next_toNat_lt hloops
  have hsmall := Nat.lt_of_lt_of_le hlt h.length_le
  obtain ⟨m, hincrement, hm⟩ := increment_eq hsmall
  have hread : self.loops_[self.next_.toNat]? = some self.loops_[self.next_.toNat] :=
    List.getElem?_eq_getElem hlt
  have hempty : self.loops_.isEmpty = false := by simpa using hloops
  refine ⟨_, if self.loops_.length ≤ toSize m then 0 else m, hread, ?_, ?_⟩
  · simp [getNextLoop, hempty, toSize_eq (Nat.le_of_lt hsmall), hread, hincrement]
  · rw [toSize_eq (by omega), hm]
    split
    · have hlast : self.next_.toNat + 1 = self.loops_.length := by omega
      rw [hlast, Nat.mod_self]
      rfl
    · rw [hm, Nat.mod_eq_of_lt (by omega)]

/-- Every loop that is handed out is one of all loops. -/
theorem getNextLoop_mem {self next : EventLoopThreadPool L} {loop : L}
    (hnext : self.getNextLoop = some (loop, next)) : loop ∈ self.getAllLoops := by
  unfold getNextLoop at hnext
  unfold getAllLoops
  split at hnext
  · next hempty =>
    cases hnext
    rw [if_pos hempty]
    exact List.mem_singleton_self _
  · next hempty =>
    obtain ⟨_, hread, hrest⟩ := Option.bind_eq_some_iff.mp hnext
    obtain ⟨_, _, heq⟩ := Option.bind_eq_some_iff.mp hrest
    cases heq
    rw [if_neg hempty]
    exact List.mem_of_getElem? hread

/-- The turns of the loop of `start` append the loops and leave the index. -/
theorem startThreads_spec (cb : Bool) (self : EventLoopThreadPool L) (i : Nat) (loops : List L) :
    (startThreads cb self i loops).loops_ = self.loops_ ++ loops ∧
      (startThreads cb self i loops).next_ = self.next_ := by
  induction loops generalizing self i with
  | nil => exact ⟨(List.append_nil _).symm, rfl⟩
  | cons loop loops ih =>
    obtain ⟨hloops, hnext⟩ := ih (self.startThread cb i loop) (i + 1)
    refine ⟨?_, hnext⟩
    rw [startThreads, hloops]
    exact List.append_assoc _ _ _

theorem start_spec (self : EventLoopThreadPool L) (cb : Bool) (loops : List L) :
    (self.start cb loops).1.loops_ = self.loops_ ++ loops ∧ (self.start cb loops).1.next_ = self.next_ :=
  startThreads_spec cb { self with started_ := true } 0 loops

theorem Sound.start {self : EventLoopThreadPool L} (h : self.Sound) (cb : Bool) {loops : List L}
    (hdistinct : (self.loops_ ++ loops).Nodup) (hlength : (self.loops_ ++ loops).length ≤ intMax) :
    (self.start cb loops).1.Sound := by
  obtain ⟨hloops, hnext⟩ := start_spec self cb loops
  refine ⟨hloops ▸ hdistinct, hloops ▸ hlength, ?_⟩
  rw [hloops, hnext, List.length_append]
  rcases h.next_lt with hzero | hlt
  · exact .inl hzero
  · exact .inr (Nat.lt_add_right _ hlt)

theorem Sound.getNextLoop {self next : EventLoopThreadPool L} {loop : L} (h : self.Sound)
    (hnext : self.getNextLoop = some (loop, next)) : next.Sound := by
  by_cases hloops : self.loops_ = []
  · rw [getNextLoop_base hloops] at hnext
    cases hnext
    exact h
  · obtain ⟨_, next_, _, heq, hround⟩ := getNextLoop_eq h hloops
    rw [heq] at hnext
    cases hnext
    refine ⟨h.distinct, h.length_le, .inr ?_⟩
    rw [hround]
    exact Nat.mod_lt _ (List.length_pos_iff.mpr hloops)

/-- What `count` calls of `getNextLoop` in a row are to return. -/
def choices (self : EventLoopThreadPool L) (count : Nat) : List L :=
  if self.loops_.isEmpty then List.replicate count self.baseLoop_
  else visited self.loops_ self.next_.toNat count

end EventLoopThreadPool

/-- A pool with all that `getNextLoop` has returned. -/
structure System (L : Type) where
  pool : EventLoopThreadPool L
  returned : List L

/-- A call on the pool. `start` comes with the loops that its threads return. -/
inductive Input (L : Type) where
  | setThreadNum (numThreads : BitVec 32)
  | start (cb : Bool) (loops : List L)
  | getNextLoop

namespace System

variable {L : Type}

def construct (baseLoop : L) (nameArg : List Char) : System L where
  pool := .construct baseLoop nameArg
  returned := []

/-- A call that is defined. Every thread has an `int` number and a loop of its own, so
the loops of all threads are different and no more than there are such numbers. -/
def step [DecidableEq L] (s : System L) : Input L → Option (System L)
  | .setThreadNum numThreads => some { s with pool := s.pool.setThreadNum numThreads }
  | .start cb loops =>
    if loops.length = s.pool.numThreads_.toInt.toNat ∧ (s.pool.loops_ ++ loops).Nodup ∧
        (s.pool.loops_ ++ loops).length ≤ intMax then
      some { s with pool := (s.pool.start cb loops).1 }
    else none
  | .getNextLoop => s.pool.getNextLoop.map fun next => { pool := next.2, returned := s.returned ++ [next.1] }

end System

/-- Every sequence of calls on a pool. -/
def usage (L : Type) [DecidableEq L] : Machine (System L) (Input L) where
  step := System.step

/-- The pool is not started (again). -/
def NoStart {L : Type} (_ : System L) : Input L → Prop
  | .start _ _ => False
  | _ => True

variable {L : Type}

theorem sound_step [DecidableEq L] {s t : System L} {i : Input L} (h : s.pool.Sound) (hstep : s.step i = some t) :
    t.pool.Sound := by
  cases i with
  | setThreadNum numThreads =>
    cases hstep
    exact ⟨h.distinct, h.length_le, h.next_lt⟩
  | start cb loops =>
    obtain ⟨⟨_, hdistinct, hlength⟩, rfl⟩ := Option.ite_some_none_eq_some.mp hstep
    exact h.start cb hdistinct hlength
  | getNextLoop =>
    obtain ⟨⟨loop, next⟩, hnext, rfl⟩ := Option.map_eq_some_iff.mp hstep
    exact h.getNextLoop hnext

/-- What happens between two states with `count` calls of `getNextLoop` and no `start`
in between. -/
structure Window (s t : System L) (count : Nat) : Prop where
  base : t.pool.baseLoop_ = s.pool.baseLoop_
  loops : t.pool.loops_ = s.pool.loops_
  next : s.pool.loops_ ≠ [] → t.pool.next_.toNat = (s.pool.next_.toNat + count) % s.pool.loops_.length
  returned : t.returned = s.returned ++ s.pool.choices count

theorem Window.refl {s : System L} (h : s.pool.Sound) : Window s s 0 := by
  refine ⟨rfl, rfl, fun hloops => ?_, ?_⟩
  · exact (Nat.mod_eq_of_lt (h.next_toNat_lt hloops)).symm
  · unfold EventLoopThreadPool.choices
    split <;> simp

/-- A call of `getNextLoop` makes the window longer by one, any other call but `start`
leaves it. -/
theorem Window.step [DecidableEq L] {s t u : System L} {count : Nat} {i : Input L} (h : Window s t count)
    (hsound : t.pool.Sound) (hok : NoStart t i) (hstep : t.step i = some u) : ∃ count', Window s u count' := by
  obtain ⟨hbase, hloops, hnext, hreturned⟩ := h
  cases i with
  | setThreadNum numThreads =>
    cases hstep
    exact ⟨count, hbase, hloops, hnext, hreturned⟩
  | start cb loops => exact hok.elim
  | getNextLoop =>
    obtain ⟨⟨loop, next⟩, hcall, rfl⟩ := Option.map_eq_some_iff.mp hstep
    refine ⟨count + 1, ?_⟩
    by_cases hempty : s.pool.loops_ = []
    · rw [EventLoopThreadPool.getNextLoop_base (hloops.trans hempty)] at hcall
      cases hcall
      refine ⟨hbase, hloops, fun hnonempty => absurd hempty hnonempty, ?_⟩
      simp only [hreturned, EventLoopThreadPool.choices, hempty, List.isEmpty_nil, if_true, hbase,
        List.append_assoc, List.replicate_succ']
    · obtain ⟨_, next_, hread, heq, hround⟩ :=
        EventLoopThreadPool.getNextLoop_eq hsound (by rw [hloops]; exact hempty)
      rw [heq] at hcall
      cases hcall
      rw [hloops, hnext hempty] at hread hround
      refine ⟨hbase, hloops, fun _ => ?_, ?_⟩
      · rw [hround, Nat.mod_add_mod, Nat.add_assoc]
      · simp only [hreturned, EventLoopThreadPool.choices, hempty, List.isEmpty_iff, if_false,
          visited_succ hread, List.append_assoc]

theorem Window.of_steps [DecidableEq L] {s t : System L} (hsound : s.pool.Sound)
    (hsteps : (usage L).Steps NoStart s t) : ∃ count, Window s t count := by
  have h : t.pool.Sound ∧ ∃ count, Window s t count := by
    refine hsteps.invariant (P := fun t => t.pool.Sound ∧ ∃ count, Window s t count) ?_
      ⟨hsound, 0, Window.refl hsound⟩
    rintro t i u ⟨hbefore, count, hwindow⟩ hok hstep
    exact ⟨sound_step hbefore hstep, hwindow.step hbefore hok hstep⟩
  exact h.2

theorem sound_of_steps [DecidableEq L] {baseLoop : L} {nameArg : List Char} {s : System L}
    (hreach : (usage L).Steps Machine.Any (.construct baseLoop nameArg) s) : s.pool.Sound :=
  hreach.invariant (P := fun s => s.pool.Sound) (fun _ _ _ h _ hstep => sound_step h hstep)
    (EventLoopThreadPool.Sound.construct baseLoop nameArg)

/-- In a sound pool the call is defined. -/
theorem exists_getNextLoop [DecidableEq L] {s : System L} (h : s.pool.Sound) :
    ∃ t, s.step .getNextLoop = some t := by
  by_cases hloops : s.pool.loops_ = []
  · exact ⟨_, by rw [System.step, EventLoopThreadPool.getNextLoop_base hloops]; rfl⟩
  · obtain ⟨loop, next_, _, heq, _⟩ := EventLoopThreadPool.getNextLoop_eq h hloops
    exact ⟨_, by rw [System.step, heq]; rfl⟩

/-- The pool assigns loops in fair rounds. In every reachable state the next call is
defined, and `next_` is the index of a loop if there are loops. Among the calls between
any two states with no `start` in between, each loop is returned as often as the number
of calls divided by the number of loops says, rounded down or up. With no loops every
call returns the base loop, which it could not if it read `loops_`. -/
theorem round_robin_fair [DecidableEq L] {baseLoop : L} {nameArg : List Char} {s t : System L}
    (hreach : (usage L).Steps Machine.Any (.construct baseLoop nameArg) s)
    (hwindow : (usage L).Steps NoStart s t) :
    (∃ u, s.step .getNextLoop = some u) ∧
    ∃ chosen, t.returned = s.returned ++ chosen ∧
      (s.pool.loops_ ≠ [] → s.pool.InRange ∧ t.pool.InRange ∧ ∀ loop ∈ s.pool.loops_,
        chosen.length / s.pool.loops_.length ≤ chosen.count loop ∧
        chosen.count loop ≤ (chosen.length + s.pool.loops_.length - 1) / s.pool.loops_.length) ∧
      (s.pool.loops_ = [] → s.pool.getNextLoop = some (s.pool.baseLoop_, s.pool) ∧
        ∀ loop ∈ chosen, loop = s.pool.baseLoop_) := by
  have hsound := sound_of_steps hreach
  have hafter : t.pool.Sound :=
    hwindow.invariant (P := fun s => s.pool.Sound) (fun _ _ _ h _ hstep => sound_step h hstep) hsound
  obtain ⟨count, hbase, hloops, hnext, hreturned⟩ := Window.of_steps hsound hwindow
  refine ⟨exists_getNextLoop hsound, s.pool.choices count, hreturned, fun hnonempty => ?_, fun hempty => ?_⟩
  · have hchoices : s.pool.choices count = visited s.pool.loops_ s.pool.next_.toNat count := by
      simp [EventLoopThreadPool.choices, hnonempty]
    refine ⟨hsound.inRange hnonempty, hafter.inRange (by rw [hloops]; exact hnonempty), fun loop hmem => ?_⟩
    rw [hchoices, length_visited hnonempty]
    exact count_visited_fair hsound.distinct (Nat.le_of_lt (hsound.next_toNat_lt hnonempty)) hmem count
  · refine ⟨EventLoopThreadPool.getNextLoop_base hempty, fun loop hmem => ?_⟩
    simp only [EventLoopThreadPool.choices, hempty, List.isEmpty_nil, if_true] at hmem
    exact List.eq_of_mem_replicate hmem

/-- A pool of three loops from which one has been taken. -/
def oneTaken : List (Input Nat) := [.setThreadNum 3, .start true [1, 2, 3], .getNextLoop]

/-- Of four more calls two return the second loop and one each of the others. -/
theorem round_robin_fair_four :
    ∃ s t, (usage Nat).run (.construct 0 ['p']) oneTaken = some s ∧
      (usage Nat).run s (List.replicate 4 .getNextLoop) = some t ∧ t.returned = [1, 2, 3, 1, 2] ∧
      ∃ chosen, t.returned = s.returned ++ chosen ∧ ∀ loop ∈ [1, 2, 3],
        chosen.length / 3 ≤ chosen.count loop ∧ chosen.count loop ≤ (chosen.length + 3 - 1) / 3 := by
  have hruns : (((usage Nat).run (.construct 0 ['p']) oneTaken).bind fun s =>
      ((usage Nat).run s (List.replicate 4 .getNextLoop)).map fun t => (s.pool.loops_, t.returned)) =
        some ([1, 2, 3], [1, 2, 3, 1, 2]) := by
    decide +kernel
  obtain ⟨s, hs, hlast⟩ := Option.bind_eq_some_iff.mp hruns
  obtain ⟨t, ht, heq⟩ := Option.map_eq_some_iff.mp hlast
  obtain ⟨hloops, hreturned⟩ := Prod.mk.inj heq
  obtain ⟨_, chosen, hchosen, hfair, _⟩ := round_robin_fair
    (Machine.steps_of_run hs (Machine.along_of_forall (fun _ _ _ => trivial) _))
    (Machine.steps_of_run ht (Machine.along_of_forall (by simp [NoStart]) _))
  rw [hloops] at hfair
  exact ⟨s, t, hs, ht, hreturned, chosen, hchosen, (hfair (by decide)).2.2⟩

end muduo.event_loop_thread_pool
