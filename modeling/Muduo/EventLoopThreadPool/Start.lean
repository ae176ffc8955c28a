import Muduo.EventLoopThreadPool
import Muduo.Thread

open text transition
open muduo.thread (setDefaultName setDefaultName_of_ne_nil)

namespace muduo.event_loop_thread_pool

variable {L : Type}

theorem plain_cString (buf : List Char) : Plain (cString buf) := by
  intro hmem
  have hkept := List.mem_takeWhile_imp hmem
  simp at hkept

/-- The name of thread `i` of a pool. -/
def threadName (name_ : List Char) (i : Nat) : List Char := cString name_ ++ decimal i

theorem threadName_injective (name_ : List Char) : Function.Injective (threadName name_) := by
  intro i j hsame
  exact decimal_injective (List.append_cancel_left hsame)

theorem threadName_ne_nil (name_ : List Char) (i : Nat) : threadName name_ i ≠ [] :=
  List.append_ne_nil_of_right_ne_nil _ Nat.toDigits_ne_nil

namespace EventLoopThreadPool

/-- The buffer holds the whole name, as long as there are no more threads than an `int` counts. -/
theorem startThread_name (self : EventLoopThreadPool L) (cb : Bool) {i : Nat} (hi : i ≤ intMax) (loop : L) :
    self.startThread cb i loop = { self with
      threads_ := self.threads_ ++ [{ callback_ := cb, name := threadName self.name_ i }]
      loops_ := self.loops_ ++ [loop] } := by
  have hplain : Plain (threadName self.name_ i) := (plain_cString _).append (plain_decimal i)
  have hfits : (threadName self.name_ i).length < self.name_.length + 32 := by
    have hstem : (cString self.name_).length ≤ self.name_.length :=
      (List.takeWhile_sublist _).length_le
    have hdigits : (decimal i).length ≤ 10 := length_decimal_le (by omega) (by unfold intMax at hi; omega)
    rw [threadName, List.length_append]
    omega
  have hname : cString (snprintf (self.name_.length + 32) (cString self.name_ ++ decimalInt i)) =
      threadName self.name_ i := cString_snprintf hplain hfits
  rw [startThread, hname]

/-- The turns of the loop of `start` make threads with callbacks and names of their own. -/
theorem startThreads_threads (cb : Bool) (self : EventLoopThreadPool L) (i : Nat) (loops : List L)
    (hlast : i + loops.length ≤ intMax) :
    (startThreads cb self i loops).threads_ = self.threads_ ++
      (List.range' i loops.length).map fun k => { callback_ := cb, name := threadName self.name_ k } := by
  induction loops generalizing self i with
  | nil => exact (List.append_nil _).symm
  | cons loop loops ih =>
    rw [List.length_cons] at hlast
    rw [startThreads, ih _ _ (by omega), startThread_name self cb (by omega), List.length_cons, List.range'_succ,
      List.map_cons, List.append_assoc]
    rfl

end EventLoopThreadPool

/-- A pool before `start`. -/
structure Unstarted (base : L) (nameArg : List Char) (q : System L) : Prop where
  base : q.pool.baseLoop_ = base
  name : q.pool.name_ = nameArg
  threads : q.pool.threads_ = []
  loops : q.pool.loops_ = []

/-- A pool that has been started once, with the loops that its threads have returned. -/
structure Started (base : L) (nameArg : List Char) (cb : Bool) (loops : List L) (t : System L) : Prop where
  base : t.pool.baseLoop_ = base
  threads : t.pool.threads_ = (List.range loops.length).map fun k => { callback_ := cb, name := threadName nameArg k }
  loops : t.pool.loops_ = loops

/-- `getNextLoop` moves the index only. -/
theorem frame_getNextLoop {pool next : EventLoopThreadPool L} {loop : L}
    (hnext : pool.getNextLoop = some (loop, next)) : ∃ next_, next = { pool with next_ } := by
  unfold EventLoopThreadPool.getNextLoop at hnext
  split at hnext
  · cases hnext
    exact ⟨pool.next_, rfl⟩
  · obtain ⟨_, _, hrest⟩ := Option.bind_eq_some_iff.mp hnext
    obtain ⟨_, _, heq⟩ := Option.bind_eq_some_iff.mp hrest
    cases heq
    exact ⟨_, rfl⟩

theorem baseLoop_startThreads (cb : Bool) (pool : EventLoopThreadPool L) (i : Nat) (loops : List L) :
    (EventLoopThreadPool.startThreads cb pool i loops).baseLoop_ = pool.baseLoop_ := by
  induction loops generalizing pool i with
  | nil => rfl
  | cons loop loops ih => exact ih (pool.startThread cb i loop) (i + 1)

variable [DecidableEq L] {base : L} {nameArg : List Char} {q t : System L}

theorem Unstarted.step {i : Input L} (h : Unstarted base nameArg q) (hok : NoStart q i) (hstep : q.step i = some t) :
    Unstarted base nameArg t := by
  cases i with
  | setThreadNum numThreads =>
    cases hstep
    exact ⟨h.base, h.name, h.threads, h.loops⟩
  | start cb loops => exact hok.elim
  | getNextLoop =>
    obtain ⟨⟨loop, next⟩, hnext, rfl⟩ := Option.map_eq_some_iff.mp hstep
    obtain ⟨next_, rfl⟩ := frame_getNextLoop hnext
    exact ⟨h.base, h.name, h.threads, h.loops⟩

theorem Started.step {cb : Bool} {loops : List L} {i : Input L} (h : Started base nameArg cb loops q)
    (hok : NoStart q i) (hstep : q.step i = some t) : Started base nameArg cb loops t := by
  cases i with
  | setThreadNum numThreads =>
    cases hstep
    exact ⟨h.base, h.threads, h.loops⟩
  | start cb' loops' => exact hok.elim
  | getNextLoop =>
    obtain ⟨⟨loop, next⟩, hnext, rfl⟩ := Option.map_eq_some_iff.mp hstep
    obtain ⟨next_, rfl⟩ := frame_getNextLoop hnext
    exact ⟨h.base, h.threads, h.loops⟩

/-- `start` makes one thread for each loop. -/
theorem Unstarted.start {cb : Bool} {loops : List L} (h : Unstarted base nameArg q)
    (hstart : q.step (.start cb loops) = some t) :
    loops.length = q.pool.numThreads_.toInt.toNat ∧ Started base nameArg cb loops t := by
  obtain ⟨⟨hnumber, _, hlength⟩, rfl⟩ := Option.ite_some_none_eq_some.mp hstart
  rw [h.loops, List.nil_append] at hlength
  refine ⟨hnumber, (baseLoop_startThreads cb _ 0 loops).trans h.base, ?_, ?_⟩
  · change (EventLoopThreadPool.startThreads cb _ 0 loops).threads_ = _
    rw [EventLoopThreadPool.startThreads_threads cb _ 0 loops (by omega), h.threads, h.name, List.nil_append,
      List.range_eq_range']
  · rw [(q.pool.start_spec cb loops).1, h.loops, List.nil_append]

/-- The threads of a pool are told apart by their names. In every pool that has been started
once, there is a thread for each loop, as many as were asked for, each has the callback
and a name of its own, made from the pool's name and its number, which `Thread` does not
replace by one of its own choice, and `getAllLoops` returns the loops of the threads, or
the base loop if there are none. -/
theorem threads_told_apart {u : System L} {cb : Bool} {loops : List L}
    (hbefore : (usage L).Steps NoStart (.construct base nameArg) q) (hstart : q.step (.start cb loops) = some t)
    (hafter : (usage L).Steps NoStart t u) :
    u.pool.threads_.length = q.pool.numThreads_.toInt.toNat ∧ u.pool.loops_.length = u.pool.threads_.length ∧
    (u.pool.threads_.map EventLoopThread.name).Nodup ∧
    (∀ (k : Nat) thread, u.pool.threads_[k]? = some thread → thread.callback_ = cb ∧
      thread.name = cString nameArg ++ decimal k ∧ ∀ num, setDefaultName num thread.name = thread.name) ∧
    u.pool.getAllLoops = if loops = [] then [base] else loops := by
  have hunstarted : Unstarted base nameArg q := hbefore.invariant (P := Unstarted base nameArg)
    (fun _ _ _ h hok hstep => h.step hok hstep) ⟨rfl, rfl, rfl, rfl⟩
  obtain ⟨hnumber, hstarted⟩ := hunstarted.start hstart
  obtain ⟨hbase, hthreads, hloops⟩ : Started base nameArg cb loops u :=
    hafter.invariant (P := Started base nameArg cb loops) (fun _ _ _ h hok hstep => h.step hok hstep) hstarted
  have hnames : u.pool.threads_.map EventLoopThread.name = (List.range loops.length).map (threadName nameArg) := by
    rw [hthreads, List.map_map]
    rfl
  refine ⟨by simp [hthreads, hnumber], by simp [hthreads, hloops], ?_, fun k thread hthread => ?_, ?_⟩
  · rw [hnames]
    exact List.nodup_range.map (threadName_injective nameArg)
  · rw [hthreads, List.getElem?_map] at hthread
    obtain ⟨number, hrange, rfl⟩ := Option.map_eq_some_iff.mp hthread
    obtain ⟨_, rfl⟩ := List.getElem?_eq_some_iff.mp hrange
    rw [List.getElem_range]
    exact ⟨rfl, rfl, fun num => setDefaultName_of_ne_nil num (threadName_ne_nil nameArg k)⟩
  · simp only [EventLoopThreadPool.getAllLoops, hloops, hbase, List.isEmpty_iff]

theorem threads_told_apart_three :
    ∃ q t, (usage Nat).run (.construct 0 "io".toList) [.setThreadNum 3] = some q ∧
      q.step (.start true [4, 5, 6]) = some t ∧ (t.pool.threads_.map EventLoopThread.name).Nodup ∧
      t.pool.getAllLoops = [4, 5, 6] := by
  have hruns : ((usage Nat).run (.construct 0 "io".toList) [.setThreadNum 3]).isSome = true := by decide
  obtain ⟨q, hq⟩ := Option.isSome_iff_exists.mp hruns
  have hstarts : (((usage Nat).run (.construct 0 "io".toList) [.setThreadNum 3]).bind fun q =>
      q.step (.start true [4, 5, 6])).isSome = true := by decide
  rw [hq, Option.bind_some] at hstarts
  obtain ⟨t, ht⟩ := Option.isSome_iff_exists.mp hstarts
  obtain ⟨_, _, hnodup, _, hall⟩ := threads_told_apart
    (Machine.steps_of_run hq (Machine.along_of_forall (by simp [NoStart]) _)) ht (Machine.Steps.refl _ _ _)
  exact ⟨q, t, hq, ht, hnodup, hall⟩

end muduo.event_loop_thread_pool
