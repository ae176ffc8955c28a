import Muduo.Library.Text
import Muduo.Library.Transition

open text transition

namespace muduo.thread

/-- `cacheTid`, with what the kernel answers to `gettid`. -/
def cacheTid (t_cachedTid gettid : Nat) : Nat := if t_cachedTid = 0 then gettid else t_cachedTid

/-- `CurrentThread::tid`: what it returns, which is then what is cached. -/
def tid (t_cachedTid gettid : Nat) : Nat :=
  if t_cachedTid = 0 then cacheTid t_cachedTid gettid else t_cachedTid

structure Thread where
  started_ : Bool
  joined_ : Bool
  tid_ : Nat
  deriving DecidableEq

/-- `setDefaultName`, with the number to which it has moved `numCreated_` on. -/
def setDefaultName (num : BitVec 32) (name_ : List Char) : List Char :=
  if name_.isEmpty then cString (snprintf 32 ("Thread".toList ++ decimalInt num.toInt)) else name_

/-- What is in `thread_`: nothing, a `std::thread` that can be joined, or one that has been
joined or detached. -/
inductive Handle where
  | null
  | joinable
  | done
  deriving DecidableEq

/-- How far the new thread is in the lambda that `start` gives it: it writes `tid_`, posts the
semaphore, and calls `func_`. -/
inductive LambdaAt where
  | unborn
  | beginning
  | recorded
  | posted
  | calling
  | returned
  deriving DecidableEq

/-- Where the thread that uses the object is: in none of its methods, at `sem_wait` in `start`,
or at `thread_->join()`. -/
inductive UserAt where
  | outside
  | waiting
  | joining
  deriving DecidableEq

/-- How a program ends: a `std::thread` that can be joined is destroyed, `thread_` is null
where it is used, or `join` or `detach` throws. -/
inductive Fault where
  | terminated
  | nullPointer
  | notJoinable
  deriving DecidableEq

/-- A `Thread` with the thread that it has started last. `alive` says that the object has not
been destroyed, `starts`, `calls` and `returns` count what has been done with `func_`. -/
structure System where
  object : Thread
  alive : Bool
  thread_ : Handle
  sem : Nat
  user : UserAt
  lambda : LambdaAt
  gettid : Nat
  starts : Nat
  calls : Nat
  returns : Nat
  fault : Option Fault
  deriving DecidableEq

inductive Input where
  | start (gettid : Nat)
  | waited
  | join
  | joined
  | destroy
  | lambda
  deriving DecidableEq

namespace System

def construct : System where
  object := { started_ := false, joined_ := false, tid_ := 0 }
  alive := true
  thread_ := .null
  sem := 0
  user := .outside
  lambda := .unborn
  gettid := 0
  starts := 0
  calls := 0
  returns := 0
  fault := none

/-- `start` up to `sem_wait`. The `std::thread` that was in `thread_` before is destroyed. -/
def start (s : System) (gettid : Nat) : System :=
  let s := { s with object := { s.object with started_ := true }, sem := 0 }
  if s.thread_ = .joinable then { s with fault := some .terminated }
  else { s with thread_ := .joinable, user := .waiting, lambda := .beginning, gettid, starts := s.starts + 1 }

/-- `join` up to the wait for the thread. -/
def join (s : System) : System :=
  let s := { s with object := { s.object with joined_ := true } }
  match s.thread_ with
  | .null => { s with fault := some .nullPointer }
  | .done => { s with fault := some .notJoinable }
  | .joinable => { s with user := .joining }

/-- The destructor, and that of `thread_` after it. -/
def destroy (s : System) : System :=
  if s.object.started_ && !s.object.joined_ then
    match s.thread_ with
    | .null => { s with fault := some .nullPointer }
    | .done => { s with fault := some .notJoinable }
    | .joinable => { s with thread_ := .done, alive := false }
  else if s.thread_ = .joinable then { s with fault := some .terminated }
  else { s with alive := false }

/-- A statement of the lambda. A thread that has just begun has cached no id. -/
def advance (s : System) : Option System :=
  match s.lambda with
  | .beginning => some { s with object := { s.object with tid_ := tid 0 s.gettid }, lambda := .recorded }
  | .recorded => some { s with sem := s.sem + 1, lambda := .posted }
  | .posted => some { s with calls := s.calls + 1, lambda := .calling }
  | .calling => some { s with returns := s.returns + 1, lambda := .returned }
  | .unborn | .returned => none

/-- A step of the thread that uses the object, or of the new one. The ids of threads are not 0. -/
def step (s : System) (i : Input) : Option System :=
  if s.fault ≠ none then none
  else match i with
  | .start gettid => if s.user = .outside ∧ s.alive = true ∧ 0 < gettid then some (s.start gettid) else none
  | .waited => if s.user = .waiting ∧ 0 < s.sem then some { s with sem := s.sem - 1, user := .outside } else none
  | .join => if s.user = .outside ∧ s.alive = true then some s.join else none
  | .joined =>
    if s.user = .joining ∧ s.lambda = .returned then some { s with thread_ := .done, user := .outside } else none
  | .destroy => if s.user = .outside ∧ s.alive = true then some s.destroy else none
  | .lambda => s.advance

/-- The program goes on, and the new thread uses no object that has been destroyed: neither
`tid_`, nor `func_`, which it calls in place. -/
def Safe (s : System) : Prop :=
  s.fault = none ∧ (s.alive = true ∨ s.lambda = .unborn ∨ s.lambda = .returned)

/-- How a `Thread` is to be used: it is not started again before it has been joined, only a
thread that runs is joined, and the object stays until the thread has been joined, or, if it
has not been joined ever, until `func_` has returned. -/
def Rightly (s : System) : Input → Prop
  | .start _ => s.thread_ ≠ .joinable
  | .join => s.thread_ = .joinable
  | .destroy => s.thread_ ≠ .joinable ∨ s.object.joined_ = false ∧ s.lambda = .returned
  | _ => True

instance (s : System) : ∀ i, Decidable (s.Rightly i)
  | .start _ => inferInstanceAs (Decidable (_ ≠ _))
  | .join => inferInstanceAs (Decidable (_ = _))
  | .destroy => inferInstanceAs (Decidable (_ ∨ _))
  | .waited | .joined | .lambda => isTrue trivial

end System

/-- A `Thread`, the thread that uses it, and those that it starts. -/
def usage : Machine System Input where
  step := System.step

namespace System

/-- The semaphore has been posted, and `start` waits for no other post. -/
def Released (s : System) : Prop :=
  s.user = .waiting ∧ s.sem = 1 ∧ s.thread_ = .joinable ∨ s.user ≠ .waiting ∧ s.sem = 0

/-- What holds where the lambda is. The semaphore is on the stack of `start`, which waits as
long as it can be posted. -/
def Holds (s : System) : LambdaAt → Prop
  | .unborn => s.user = .outside ∧ s.sem = 0 ∧ s.thread_ = .null ∧ s.starts = 0 ∧ s.calls = 0 ∧ s.returns = 0
  | .beginning => s.user = .waiting ∧ s.sem = 0 ∧ s.thread_ = .joinable ∧ s.calls + 1 = s.starts ∧
    s.returns + 1 = s.starts
  | .recorded => s.user = .waiting ∧ s.sem = 0 ∧ s.thread_ = .joinable ∧ s.object.tid_ = s.gettid ∧
    s.calls + 1 = s.starts ∧ s.returns + 1 = s.starts
  | .posted => s.Released ∧ s.thread_ = .joinable ∧ s.object.tid_ = s.gettid ∧ s.calls + 1 = s.starts ∧
    s.returns + 1 = s.starts
  | .calling => s.Released ∧ s.thread_ = .joinable ∧ s.object.tid_ = s.gettid ∧ s.calls = s.starts ∧
    s.returns + 1 = s.starts
  | .returned => s.Released ∧ s.thread_ ≠ .null ∧ s.object.tid_ = s.gettid ∧ s.calls = s.starts ∧
    s.returns = s.starts

/-- The invariant of a `Thread` that is used rightly. -/
structure Sound (s : System) : Prop where
  fault : s.fault = none
  dead : s.alive = false → s.user = .outside ∧ s.thread_ ≠ .joinable
  handle : s.thread_ = .null ↔ s.object.started_ = false
  joined : s.alive = true → s.object.started_ = true → s.object.joined_ = false → s.thread_ = .joinable
  joining : s.user = .joining → s.thread_ = .joinable ∧ s.object.joined_ = true
  gettid : s.thread_ ≠ .null → 0 < s.gettid
  lambda : s.Holds s.lambda

namespace Sound

variable {s t : System}

theorem construct : Sound construct :=
  ⟨rfl, by simp [System.construct], by simp [System.construct], by simp [System.construct], by simp [System.construct],
    by simp [System.construct], ⟨rfl, rfl, rfl, rfl, rfl, rfl⟩⟩

/-- What cannot be joined has not begun or has returned. -/
theorem finished (h : s.Sound) (hthread : s.thread_ ≠ .joinable) :
    s.lambda = .unborn ∨ s.lambda = .returned := by
  have hlambda := h.lambda
  cases hat : s.lambda with
  | unborn => exact .inl rfl
  | returned => exact .inr rfl
  | beginning | recorded =>
    rw [hat] at hlambda
    exact absurd hlambda.2.2.1 hthread
  | posted | calling =>
    rw [hat] at hlambda
    exact absurd hlambda.2.1 hthread

theorem safe (h : s.Sound) : s.Safe := by
  refine ⟨h.fault, ?_⟩
  cases halive : s.alive with
  | true => exact .inl rfl
  | false => exact .inr (h.finished (h.dead halive).2)

end Sound

/-- What a step is, for each input that is enabled. -/
inductive Stepped (s : System) : Input → System → Prop where
  | start (gettid : Nat) (houtside : s.user = .outside) (halive : s.alive = true) (hpositive : 0 < gettid) :
      Stepped s (.start gettid) (s.start gettid)
  | waited (hwaiting : s.user = .waiting) (hposted : 0 < s.sem) :
      Stepped s .waited { s with sem := s.sem - 1, user := .outside }
  | join (houtside : s.user = .outside) (halive : s.alive = true) : Stepped s .join s.join
  | joined (hjoining : s.user = .joining) (hreturned : s.lambda = .returned) :
      Stepped s .joined { s with thread_ := .done, user := .outside }
  | destroy (houtside : s.user = .outside) (halive : s.alive = true) : Stepped s .destroy s.destroy
  | beginning (hat : s.lambda = .beginning) : Stepped s .lambda
      { s with object := { s.object with tid_ := tid 0 s.gettid }, lambda := .recorded }
  | recorded (hat : s.lambda = .recorded) : Stepped s .lambda { s with sem := s.sem + 1, lambda := .posted }
  | posted (hat : s.lambda = .posted) : Stepped s .lambda { s with calls := s.calls + 1, lambda := .calling }
  | calling (hat : s.lambda = .calling) : Stepped s .lambda { s with returns := s.returns + 1, lambda := .returned }

theorem stepped {s t : System} {i : Input} (hstep : s.step i = some t) : Stepped s i t := by
  obtain ⟨_, hstep⟩ := Option.ite_none_left_eq_some.mp hstep
  cases i with
  | start gettid =>
    obtain ⟨⟨houtside, halive, hpositive⟩, rfl⟩ := Option.ite_some_none_eq_some.mp hstep
    exact .start gettid houtside halive hpositive
  | waited =>
    obtain ⟨⟨hwaiting, hposted⟩, rfl⟩ := Option.ite_some_none_eq_some.mp hstep
    exact .waited hwaiting hposted
  | join =>
    obtain ⟨⟨houtside, halive⟩, rfl⟩ := Option.ite_some_none_eq_some.mp hstep
    exact .join houtside halive
  | joined =>
    obtain ⟨⟨hjoining, hreturned⟩, rfl⟩ := Option.ite_some_none_eq_some.mp hstep
    exact .joined hjoining hreturned
  | destroy =>
    obtain ⟨⟨houtside, halive⟩, rfl⟩ := Option.ite_some_none_eq_some.mp hstep
    exact .destroy houtside halive
  | lambda =>
    simp only [advance] at hstep
    split at hstep
    · next hat =>
      cases hstep
      exact .beginning hat
    · next hat =>
      cases hstep
      exact .recorded hat
    · next hat =>
      cases hstep
      exact .posted hat
    · next hat =>
      cases hstep
      exact .calling hat
    · cases hstep
    · cases hstep

namespace Sound

variable {s t : System}

theorem start (h : s.Sound) (halive : s.alive = true) {gettid : Nat} (hpositive : 0 < gettid)
    (hthread : s.thread_ ≠ .joinable) : (s.start gettid).Sound := by
  obtain ⟨hcalls, hreturns⟩ : s.calls = s.starts ∧ s.returns = s.starts := by
    have hlambda := h.lambda
    obtain hat | hat := h.finished hthread
    · rw [hat] at hlambda
      obtain ⟨_, _, _, hstarts, hcalls, hreturns⟩ := hlambda
      omega
    · rw [hat] at hlambda
      exact hlambda.2.2.2
  have hstarted : s.start gettid = { s with
      object := { s.object with started_ := true }, sem := 0, thread_ := .joinable, user := .waiting,
      lambda := .beginning, gettid, starts := s.starts + 1 } := if_neg hthread
  rw [hstarted]
  refine ⟨h.fault, ?_, ?_, fun _ _ _ => rfl, by simp, fun _ => hpositive, ?_⟩
  · intro hdead
    rw [halive] at hdead
    cases hdead
  · simp
  · exact ⟨rfl, rfl, rfl, congrArg (· + 1) hcalls, congrArg (· + 1) hreturns⟩

/-- `start` returns: the semaphore has been posted. -/
theorem waited (h : s.Sound) (hwaiting : s.user = .waiting) (hposted : 0 < s.sem) :
    Sound { s with sem := s.sem - 1, user := .outside } := by
  have hlambda := h.lambda
  have hreleased (hnow : s.Released) : Released { s with sem := s.sem - 1, user := .outside } := by
    obtain ⟨_, hone, _⟩ | ⟨hnot, _⟩ := hnow
    · exact .inr ⟨by simp, Nat.sub_eq_zero_of_le (Nat.le_of_eq hone)⟩
    · exact absurd hwaiting hnot
  refine ⟨h.fault, fun hdead => ⟨rfl, (h.dead hdead).2⟩, h.handle, h.joined, by simp, h.gettid, ?_⟩
  change Holds _ s.lambda
  cases hat : s.lambda with
  | unborn =>
    rw [hat] at hlambda
    have hnone := hlambda.1.symm.trans hwaiting
    cases hnone
  | beginning | recorded =>
    rw [hat] at hlambda
    have hnone : s.sem = 0 := hlambda.2.1
    omega
  | posted | calling | returned =>
    rw [hat] at hlambda
    exact ⟨hreleased hlambda.1, hlambda.2⟩

/-- What holds where the lambda is goes on to hold when a user that is in no method enters one. -/
theorem holds_user (h : s.Sound) (houtside : s.user = .outside) {object : Thread}
    (htid : object.tid_ = s.object.tid_) {user : UserAt} (huser : user ≠ .waiting)
    (hborn : s.lambda ≠ .unborn) : Holds { s with object, user } s.lambda := by
  have hlambda := h.lambda
  have hreleased (hnow : s.Released) : Released { s with object, user } := by
    obtain ⟨hwaiting, _⟩ | ⟨_, hnone⟩ := hnow
    · rw [houtside] at hwaiting
      cases hwaiting
    · exact .inr ⟨huser, hnone⟩
  cases hat : s.lambda with
  | unborn => exact absurd hat hborn
  | beginning | recorded =>
    rw [hat] at hlambda
    have hwaiting := houtside.symm.trans hlambda.1
    cases hwaiting
  | posted | calling | returned =>
    rw [hat] at hlambda
    obtain ⟨hnow, hthread, hid, hcounts⟩ := hlambda
    exact ⟨hreleased hnow, hthread, htid.trans hid, hcounts⟩

theorem join (h : s.Sound) (houtside : s.user = .outside) (halive : s.alive = true)
    (hthread : s.thread_ = .joinable) : s.join.Sound := by
  have hjoined : s.join = { s with object := { s.object with joined_ := true }, user := .joining } := by
    simp only [System.join, hthread]
  have hborn : s.lambda ≠ .unborn := by
    intro hat
    have hlambda := h.lambda
    rw [hat] at hlambda
    have hnull := hlambda.2.2.1
    rw [hthread] at hnull
    cases hnull
  rw [hjoined]
  refine ⟨h.fault, ?_, h.handle, ?_, fun _ => ⟨hthread, rfl⟩, h.gettid,
    h.holds_user houtside rfl (by simp) hborn⟩
  · intro hdead
    rw [halive] at hdead
    cases hdead
  · intro _ _ hnot
    cases hnot

/-- `thread_->join()` returns: so has the lambda. A thread that is joined or detached is done. -/
theorem holds_done (h : s.Sound) (hreturned : s.lambda = .returned)
    (hreleased : s.user ≠ .waiting) : Holds { s with thread_ := .done, user := .outside } s.lambda := by
  have hlambda := h.lambda
  rw [hreturned] at hlambda ⊢
  obtain ⟨⟨hwaiting, _⟩ | ⟨_, hnone⟩, _, hrest⟩ := hlambda
  · exact absurd hwaiting hreleased
  · exact ⟨.inr ⟨by simp, hnone⟩, by simp, hrest⟩

/-- A thread that can be joined has been started. -/
theorem started (h : s.Sound) (hthread : s.thread_ = .joinable) : s.object.started_ = true := by
  cases hstarted : s.object.started_ with
  | true => rfl
  | false =>
    have hnull := h.handle.mpr hstarted
    rw [hthread] at hnull
    cases hnull

theorem destroy (h : s.Sound) (houtside : s.user = .outside) (halive : s.alive = true)
    (hrightly : s.Rightly .destroy) : s.destroy.Sound := by
  by_cases hthread : s.thread_ = .joinable
  · -- the thread is detached, and it has returned
    obtain hnot | ⟨hjoined, hreturned⟩ := hrightly
    · exact absurd hthread hnot
    have hdetached : s.destroy = { s with thread_ := .done, alive := false } := by
      simp [System.destroy, h.started hthread, hjoined, hthread]
    rw [hdetached]
    refine ⟨h.fault, fun _ => ⟨houtside, by simp⟩, ?_, by simp, ?_, fun _ => h.gettid (by simp [hthread]), ?_⟩
    · simp [h.started hthread]
    · intro hjoining
      rw [houtside] at hjoining
      cases hjoining
    · have hholds := h.holds_done hreturned (by simp [houtside])
      rw [← houtside] at hholds
      rw [hreturned] at hholds ⊢
      exact hholds
  · have hkept : ¬ (s.object.started_ && !s.object.joined_) = true := by
      intro hboth
      obtain ⟨hstarted, hjoined⟩ := (Bool.and_eq_true _ _).mp hboth
      exact hthread (h.joined halive hstarted (by simpa using hjoined))
    have hgone : s.destroy = { s with alive := false } := by
      rw [System.destroy, if_neg hkept, if_neg hthread]
    rw [hgone]
    refine ⟨h.fault, fun _ => ⟨houtside, hthread⟩, h.handle, by simp, h.joining, h.gettid, ?_⟩
    have hlambda := h.lambda
    obtain hat | hat := h.finished hthread
    · rw [hat] at hlambda
      rw [hat]
      exact hlambda
    · rw [hat] at hlambda
      rw [hat]
      exact hlambda

/-- Every step that uses the object rightly keeps the invariant. -/
theorem step {i : Input} (h : s.Sound) (hrightly : s.Rightly i) (hstep : s.step i = some t) : t.Sound := by
  have hlambda := h.lambda
  obtain hstepped := stepped hstep
  cases hstepped with
  | start gettid houtside halive hpositive => exact h.start halive hpositive hrightly
  | waited hwaiting hposted => exact h.waited hwaiting hposted
  | join houtside halive => exact h.join houtside halive hrightly
  | joined hjoining hreturned =>
    obtain ⟨hthread, hjoined⟩ := h.joining hjoining
    refine ⟨h.fault, fun hdead => ⟨rfl, by simp⟩, ?_, ?_, by simp, fun _ => h.gettid (by simp [hthread]), ?_⟩
    · simp [h.started hthread]
    · intro _ _ hnot
      rw [hjoined] at hnot
      cases hnot
    · exact h.holds_done hreturned (by simp [hjoining])
  | destroy houtside halive => exact h.destroy houtside halive hrightly
  | beginning hat =>
    rw [hat] at hlambda
    obtain ⟨hwaiting, hnone, hthread, hcounts⟩ := hlambda
    exact ⟨h.fault, h.dead, h.handle, h.joined, h.joining, h.gettid, hwaiting, hnone, hthread, rfl, hcounts⟩
  | recorded hat =>
    rw [hat] at hlambda
    obtain ⟨hwaiting, hnone, hthread, hrest⟩ := hlambda
    refine ⟨h.fault, h.dead, h.handle, h.joined, h.joining, h.gettid, .inl ⟨hwaiting, ?_, hthread⟩, hthread, hrest⟩
    exact congrArg (· + 1) hnone
  | posted hat =>
    rw [hat] at hlambda
    obtain ⟨hreleased, hthread, hid, hcalls, hreturns⟩ := hlambda
    exact ⟨h.fault, h.dead, h.handle, h.joined, h.joining, h.gettid, hreleased, hthread, hid, hcalls, hreturns⟩
  | calling hat =>
    rw [hat] at hlambda
    obtain ⟨hreleased, hthread, hid, hcalls, hreturns⟩ := hlambda
    refine ⟨h.fault, h.dead, h.handle, h.joined, h.joining, h.gettid, hreleased, ?_, hid, hcalls, hreturns⟩
    change s.thread_ ≠ .null
    rw [hthread]
    simp

/-- A step that does not use the object rightly ends the program, or leaves a thread that
uses an object which is gone. -/
theorem step_wrong {i : Input} (h : s.Sound) (hwrong : ¬ s.Rightly i) (hstep : s.step i = some t) : ¬ t.Safe := by
  obtain hstepped := stepped hstep
  cases hstepped with
  | start gettid houtside halive hpositive =>
    have hthread : s.thread_ = .joinable := Classical.not_not.mp hwrong
    rintro ⟨hfault, _⟩
    rw [System.start, if_pos hthread] at hfault
    cases hfault
  | join houtside halive =>
    rintro ⟨hfault, _⟩
    unfold System.join at hfault
    cases hthread : s.thread_ with
    | joinable => exact hwrong hthread
    | null | done =>
      simp only [hthread] at hfault
      cases hfault
  | destroy houtside halive =>
    have hthread : s.thread_ = .joinable := Classical.not_not.mp fun hnot => hwrong (.inl hnot)
    have hlambda := h.lambda
    cases hjoined : s.object.joined_ with
    | true =>
      rintro ⟨hfault, _⟩
      simp [System.destroy, hjoined, hthread] at hfault
    | false =>
      have hdetached : s.destroy = { s with thread_ := .done, alive := false } := by
        simp [System.destroy, h.started hthread, hjoined, hthread]
      rw [hdetached]
      rintro ⟨_, halive | hunborn | hreturned⟩
      · cases halive
      · have hat : s.lambda = .unborn := hunborn
        rw [hat] at hlambda
        have hnull := hlambda.2.2.1
        rw [hthread] at hnull
        cases hnull
      · exact hwrong (.inr ⟨hjoined, hreturned⟩)
  | waited | joined | beginning | recorded | posted | calling => exact absurd trivial hwrong

end Sound

end System

/-- The contract of `Thread`. In a run of a program with a `Thread`, the program never ends by
a mistake in its use and the new thread never uses an object that is gone, exactly when it
is used rightly throughout: after `start` and without `join` it must stay until `func_` has
returned, although the destructor detaches the thread as if it could go. -/
theorem used_rightly_iff {inputs : List Input} {s : System} (hrun : usage.run .construct inputs = some s) :
    (∀ done t, done <+: inputs → usage.run .construct done = some t → t.Safe) ↔
      usage.Along System.Rightly .construct inputs :=
  Machine.along_iff_forall_prefix (fun _ => True) System.Sound System.Safe (fun _ h => h.safe)
    (fun _ _ _ h _ hrightly hstep => h.step hrightly hstep)
    (fun _ _ _ h _ hwrong hstep => h.step_wrong hwrong hstep) (fun _ _ => trivial) .construct hrun

/-- A thread that is started, joined when it has returned, started and joined again, and
whose object is then destroyed. -/
def joinedTwice : List Input :=
  [.start 7, .lambda, .lambda, .waited, .join, .lambda, .lambda, .joined, .start 8, .lambda, .lambda, .lambda, .waited,
    .lambda, .join, .joined, .destroy]

theorem used_rightly_iff_joinedTwice :
    ∃ s, usage.run .construct joinedTwice = some s ∧
      ∀ done t, done <+: joinedTwice → usage.run .construct done = some t → t.Safe := by
  have hruns : (usage.run .construct joinedTwice).isSome = true := by decide
  obtain ⟨s, hrun⟩ := Option.isSome_iff_exists.mp hruns
  exact ⟨s, hrun, (used_rightly_iff hrun).mpr (by decide)⟩

/-- An object that is destroyed after `start` is used by the thread that it has let go. -/
example : (usage.run .construct [.start 7, .lambda, .lambda, .waited, .destroy, .lambda]).map
    (fun s => (s.alive, s.lambda)) = some (false, .calling) := by decide

namespace System

theorem run_lambda {s t : System} {inputs : List Input} {u : System} (hstep : s.step .lambda = some t)
    (hrun : usage.run t inputs = some u) : usage.run s (.lambda :: inputs) = some u := by
  change (s.step .lambda).bind _ = _
  rw [hstep, Option.bind_some, hrun]

variable {s : System}

/-- A step of the lambda is never held up. -/
theorem step_lambda (h : s.Sound) : s.step .lambda = s.advance := if_neg (by simp [h.fault])

/-- From where `start` waits, the lambda makes it return with at most two steps. -/
theorem exists_waited (h : s.Sound) (hwaiting : s.user = .waiting) :
    ∃ steps ≤ 2, ∃ t, usage.run s (List.replicate steps .lambda ++ [.waited]) = some t ∧ t.user = .outside := by
  have hreturn {u : System} (hfault : u.fault = none) (huser : u.user = .waiting) (hposted : 0 < u.sem) :
      ∃ t, usage.run u [.waited] = some t ∧ t.user = .outside := by
    refine ⟨{ u with sem := u.sem - 1, user := .outside }, ?_, rfl⟩
    simp [Machine.run, usage, step, hfault, huser, hposted]
  have hlambda := h.lambda
  cases hat : s.lambda with
  | unborn =>
    rw [hat] at hlambda
    have hnone := hlambda.1.symm.trans hwaiting
    cases hnone
  | beginning =>
    obtain ⟨t, hrun, hend⟩ := hreturn
      (u := { s with object := { s.object with tid_ := tid 0 s.gettid }, sem := s.sem + 1, lambda := .posted })
      h.fault hwaiting (Nat.succ_pos _)
    have hfirst : s.step .lambda =
        some { s with object := { s.object with tid_ := tid 0 s.gettid }, lambda := .recorded } := by
      rw [step_lambda h, advance, hat]
    refine ⟨2, Nat.le_refl _, t, run_lambda hfirst (run_lambda ?_ hrun), hend⟩
    exact (if_neg (by simp [h.fault])).trans rfl
  | recorded =>
    obtain ⟨t, hrun, hend⟩ := hreturn (u := { s with sem := s.sem + 1, lambda := .posted })
      h.fault hwaiting (Nat.succ_pos _)
    refine ⟨1, by decide, t, run_lambda ?_ hrun, hend⟩
    rw [step_lambda h, advance, hat]
  | posted | calling | returned =>
    rw [hat] at hlambda
    obtain ⟨⟨_, hone, _⟩ | ⟨hnot, _⟩, _⟩ := hlambda
    · obtain ⟨t, hrun, hend⟩ := hreturn h.fault hwaiting (by omega)
      exact ⟨0, by decide, t, hrun, hend⟩
    · exact absurd hwaiting hnot

/-- From where `join` waits, it returns when `func_` has. -/
theorem exists_joined (h : s.Sound) (hjoining : s.user = .joining) :
    ∃ steps ≤ 2, ∃ t, usage.run s (List.replicate steps .lambda ++ [.joined]) = some t ∧ t.user = .outside := by
  have hreturn {u : System} (hfault : u.fault = none) (huser : u.user = .joining) (hreturned : u.lambda = .returned) :
      ∃ t, usage.run u [.joined] = some t ∧ t.user = .outside := by
    refine ⟨{ u with thread_ := .done, user := .outside }, ?_, rfl⟩
    simp [Machine.run, usage, step, hfault, huser, hreturned]
  have hlambda := h.lambda
  cases hat : s.lambda with
  | unborn | beginning | recorded =>
    rw [hat] at hlambda
    have hnone := hlambda.1.symm.trans hjoining
    cases hnone
  | posted =>
    obtain ⟨t, hrun, hend⟩ := hreturn
      (u := { s with calls := s.calls + 1, returns := s.returns + 1, lambda := .returned }) h.fault hjoining rfl
    have hfirst : s.step .lambda = some { s with calls := s.calls + 1, lambda := .calling } := by
      rw [step_lambda h, advance, hat]
    refine ⟨2, Nat.le_refl _, t, run_lambda hfirst (run_lambda ?_ hrun), hend⟩
    exact (if_neg (by simp [h.fault])).trans rfl
  | calling =>
    obtain ⟨t, hrun, hend⟩ := hreturn (u := { s with returns := s.returns + 1, lambda := .returned })
      h.fault hjoining rfl
    refine ⟨1, by decide, t, run_lambda ?_ hrun, hend⟩
    rw [step_lambda h, advance, hat]
  | returned =>
    obtain ⟨t, hrun, hend⟩ := hreturn h.fault hjoining hat
    exact ⟨0, by decide, t, hrun, hend⟩

namespace Sound

/-- No `func_` is called without a start, or twice for one. -/
theorem counts (h : s.Sound) : s.calls ≤ s.starts ∧ s.starts ≤ s.calls + 1 ∧
    (s.thread_ = .done → s.calls = s.starts ∧ s.returns = s.starts) := by
  have hrunning (hthread : s.thread_ = .joinable) (hcalls : s.calls ≤ s.starts) (hstarts : s.starts ≤ s.calls + 1) :
      s.calls ≤ s.starts ∧ s.starts ≤ s.calls + 1 ∧
      (s.thread_ = .done → s.calls = s.starts ∧ s.returns = s.starts) := by
    refine ⟨hcalls, hstarts, fun hdone => ?_⟩
    rw [hthread] at hdone
    cases hdone
  have hlambda := h.lambda
  cases hat : s.lambda with
  | unborn =>
    rw [hat] at hlambda
    obtain ⟨_, _, _, hstarts, hcalls, hreturns⟩ := hlambda
    exact ⟨by omega, by omega, fun _ => by omega⟩
  | beginning =>
    rw [hat] at hlambda
    obtain ⟨_, _, hthread, hcalls, _⟩ := hlambda
    exact hrunning hthread (by omega) (by omega)
  | recorded =>
    rw [hat] at hlambda
    obtain ⟨_, _, hthread, _, hcalls, _⟩ := hlambda
    exact hrunning hthread (by omega) (by omega)
  | posted =>
    rw [hat] at hlambda
    obtain ⟨_, hthread, _, hcalls, _⟩ := hlambda
    exact hrunning hthread (by omega) (by omega)
  | calling =>
    rw [hat] at hlambda
    obtain ⟨_, hthread, _, hcalls, _⟩ := hlambda
    exact hrunning hthread (by omega) (by omega)
  | returned =>
    rw [hat] at hlambda
    obtain ⟨_, _, _, hcalls, hreturns⟩ := hlambda
    exact ⟨by omega, by omega, fun _ => ⟨hcalls, hreturns⟩⟩

/-- When `start` has returned, `tid_` is the id of the thread. -/
theorem tid (h : s.Sound) (hstarted : s.object.started_ = true) (hreturned : s.user ≠ .waiting) :
    0 < s.object.tid_ ∧ s.object.tid_ = s.gettid := by
  have hthread : s.thread_ ≠ .null := by
    intro hnull
    rw [h.handle.mp hnull] at hstarted
    cases hstarted
  have hpositive := h.gettid hthread
  have hlambda := h.lambda
  have hid : s.object.tid_ = s.gettid := by
    cases hat : s.lambda with
    | unborn =>
      rw [hat] at hlambda
      exact absurd hlambda.2.2.1 hthread
    | beginning | recorded =>
      rw [hat] at hlambda
      exact absurd hlambda.1 hreturned
    | posted | calling | returned =>
      rw [hat] at hlambda
      exact hlambda.2.2.1
  exact ⟨by omega, hid⟩

end Sound

end System

/-- `start` hands over. In every run in which a `Thread` is used rightly, whatever the
interleaving, `tid()` is the id of the new thread from the moment in which `start` returns,
`func_` is called at most once for each start and has returned once the thread has been
joined or detached, and `start` and `join` wait for nothing but steps of the new thread. -/
theorem start_hands_over {s : System} (hrun : usage.Steps System.Rightly .construct s) :
    (s.object.started_ = true → s.user ≠ .waiting → 0 < s.object.tid_ ∧ s.object.tid_ = s.gettid) ∧
    s.calls ≤ s.starts ∧ s.starts ≤ s.calls + 1 ∧
    (s.thread_ = .done → s.calls = s.starts ∧ s.returns = s.starts) ∧
    (s.user ≠ .outside → ∃ steps ≤ 2, ∃ last ∈ [Input.waited, Input.joined], ∃ t,
      usage.run s (List.replicate steps .lambda ++ [last]) = some t ∧ t.user = .outside) := by
  have hsound : s.Sound := hrun.invariant (P := System.Sound)
    (fun _ _ _ h hrightly hstep => h.step hrightly hstep) .construct
  obtain ⟨hcalls, hstarts, hdone⟩ := hsound.counts
  refine ⟨hsound.tid, hcalls, hstarts, hdone, fun hinside => ?_⟩
  cases huser : s.user with
  | outside => exact absurd huser hinside
  | waiting =>
    obtain ⟨steps, hsteps, hreturn⟩ := System.exists_waited hsound huser
    exact ⟨steps, hsteps, .waited, by simp, hreturn⟩
  | joining =>
    obtain ⟨steps, hsteps, hreturn⟩ := System.exists_joined hsound huser
    exact ⟨steps, hsteps, .joined, by simp, hreturn⟩

theorem start_hands_over_joining :
    ∃ s, usage.run .construct [.start 7, .lambda, .lambda, .waited, .join] = some s ∧ s.object.tid_ = 7 ∧
      ∃ steps ≤ 2, ∃ last ∈ [Input.waited, Input.joined], ∃ t,
        usage.run s (List.replicate steps .lambda ++ [last]) = some t ∧ t.user = .outside := by
  have hruns : ((usage.run .construct [.start 7, .lambda, .lambda, .waited, .join]).map
      fun s => (s.object.tid_, s.user)) = some (7, .joining) := by decide
  obtain ⟨s, hrun, heq⟩ := Option.map_eq_some_iff.mp hruns
  obtain ⟨htid, huser⟩ := Prod.mk.inj heq
  obtain ⟨_, _, _, _, hreturns⟩ := start_hands_over (Machine.steps_of_run hrun (by decide))
  exact ⟨s, hrun, htid, hreturns (by simp [huser])⟩

theorem setDefaultName_of_ne_nil (num : BitVec 32) {name_ : List Char} (hname : name_ ≠ []) :
    setDefaultName num name_ = name_ := if_neg (by simpa using hname)

end muduo.thread
