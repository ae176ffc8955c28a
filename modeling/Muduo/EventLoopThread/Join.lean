import Muduo.EventLoopThread.Quit

open transition
open muduo.event_loop

namespace muduo.event_loop_thread

variable {T F H : Type}

/-- `loop_` is set: it has been published and not been cleared yet. -/
def FuncAt.published : FuncAt → Bool
  | .notify => true
  | .unlock => true
  | .enter => true
  | .looping => true
  | .lockAgain => true
  | .clear => true
  | _ => false

/-- The destructor has seen `loop_` set and has yet to call `quit()` through it. -/
def OwnerAt.quitting : OwnerAt → Bool
  | .load => true
  | .call _ => true
  | _ => false

/-- `threadFunc` does not clear `loop_` between the destructor's test of it and its
call of `quit()`, and if the test finds it cleared, `threadFunc` has returned. -/
def System.awaits (s : System T F H) : Input T F H → Bool
  | .threadFunc => !(s.func == .clear && s.owner.quitting)
  | .destruct => s.owner != .test || s.loop_ || s.func == .returned
  | _ => true

def Awaits (s : System T F H) (i : Input T F H) : Prop := s.awaits i = true

instance (s : System T F H) (i : Input T F H) : Decidable (Awaits s i) :=
  inferInstanceAs (Decidable (s.awaits i = true))

/-- What makes the destructor wait: `loop_` stays set from the test to the call, and
beyond the join `threadFunc` has returned. -/
structure Joining (s : System T F H) : Prop where
  unborn : s.owner = .start → s.func = .unborn
  loop_eq : s.loop_ = s.func.published
  held : s.owner.quitting = true → s.loop_ = true
  pointer : ∀ pointer, s.owner = .call pointer → pointer = true
  joined : s.owner = .members ∨ s.owner = .destroyed → s.func = .returned
  straight : s.strayed = false

theorem Joining.construct : Joining (System.construct : System T F H) :=
  ⟨fun _ => rfl, rfl, by simp [System.construct, OwnerAt.quitting], by simp [System.construct],
    by simp [System.construct], rfl⟩

theorem FuncAt.alive_of_published {func : FuncAt} (h : func.published = true) : func.alive = true := by
  cases func <;> first | rfl | cases h

theorem FuncAt.published_follow (func : FuncAt) (at_ : Location F H) :
    (func.follow at_).published = func.published := by
  unfold FuncAt.follow
  split <;> rfl

/-- A step of `threadFunc` outside of `loop()` that keeps `loop_` for the destructor. -/
theorem Joining.threadFunc {s t : System T F H} (h : Joining s) (hok : Awaits s .threadFunc)
    (hstep : s.threadFunc = some t) : Joining t := by
  obtain ⟨hunborn, hloop, hheld, hpointer, hjoined, hstraight⟩ := h
  have hborn := (threadFunc_loop hstep).2.2.2.2
  have hpending : s.func ≠ .returned := by
    intro hreturned
    simp [System.threadFunc, hreturned] at hstep
  have hkept {t : System T F H} (howner : t.owner = s.owner) (hstrayed : t.strayed = s.strayed)
      (hloop' : t.loop_ = t.func.published) (hheld' : s.owner.quitting = true → t.loop_ = true) : Joining t := by
    refine ⟨fun hstart => ?_, hloop', ?_, ?_, ?_, hstrayed.trans hstraight⟩ <;> rw [howner] at *
    · exact absurd (hunborn hstart) hborn
    · exact hheld'
    · exact hpointer
    · exact fun hlate => absurd (hjoined hlate) hpending
  unfold System.threadFunc at hstep
  cases hfunc : s.func <;> simp only [hfunc] at hstep hloop
  case unborn | enter | looping | returned => cases hstep
  case callback | lock | lockAgain =>
    split at hstep
    · cases hstep
      exact hkept rfl rfl hloop hheld
    · cases hstep
  case publish =>
    cases hstep
    exact hkept rfl rfl rfl fun _ => rfl
  case clear =>
    cases hstep
    have hidle : s.owner.quitting = false := by simpa [Awaits, System.awaits, hfunc] using hok
    exact hkept rfl rfl rfl fun hquitting => by rw [hidle] at hquitting; cases hquitting
  case post | construct | notify | unlock | unlockAgain | destroy =>
    cases hstep
    exact hkept rfl rfl hloop hheld

theorem Joining.startLoop {s t : System T F H} (h : Joining s) (hstep : s.startLoop = some t) : Joining t := by
  obtain ⟨hunborn, hloop, hheld, hpointer, hjoined, hstraight⟩ := h
  unfold System.startLoop at hstep
  cases howner : s.owner <;> simp only [howner] at hstep
  case start =>
    cases hstep
    rw [hunborn howner] at hloop
    exact ⟨by simp, hloop, by simp [OwnerAt.quitting], by simp, by simp, hstraight⟩
  case waitPosted | lock | wait | blocked =>
    split at hstep <;> cases hstep <;>
      exact ⟨by simp, hloop, by simp [OwnerAt.quitting], by simp, by simp, hstraight⟩
  case take =>
    cases hstep
    exact ⟨by simp, hloop, by simp [OwnerAt.quitting], by simp, by simp, hstraight⟩
  all_goals cases hstep

/-- A step of the destructor whose test does not find `loop_` cleared too early. -/
theorem Joining.destruct {s t : System T F H} (h : Joining s) (hok : Awaits s .destruct)
    (hstep : s.destruct = some t) : Joining t := by
  obtain ⟨hunborn, hloop, hheld, hpointer, hjoined, hstraight⟩ := h
  unfold System.destruct at hstep
  cases howner : s.owner <;> simp only [howner] at hstep
  case exit =>
    cases hstep
    exact ⟨by simp, hloop, by simp [OwnerAt.quitting], by simp, by simp, hstraight⟩
  case test =>
    cases hstep
    cases hset : s.loop_ with
    | true => exact ⟨by simp, by simpa [hset] using hloop, fun _ => rfl, by simp, by simp, hstraight⟩
    | false =>
      have hreturned : s.func = .returned := by simpa [Awaits, System.awaits, howner, hset] using hok
      exact ⟨by simp, by simpa [hset] using hloop, by simp [OwnerAt.quitting], by simp, fun _ => hreturned,
        hstraight⟩
  case load =>
    cases hstep
    have hset := hheld (by rw [howner]; rfl)
    exact ⟨by simp, hloop, fun _ => hset, by simp [hset], by simp, hstraight⟩
  case call pointer =>
    have hset := hheld (by rw [howner]; rfl)
    have halive := FuncAt.alive_of_published (hloop.symm.trans hset)
    rw [hpointer pointer howner, hset, halive] at hstep
    simp only [Bool.and_self, if_true] at hstep
    cases hstep
    exact ⟨by simp, hset.symm.trans hloop, by simp [OwnerAt.quitting], by simp, by simp, by simp [hstraight]⟩
  case wakeup pointer =>
    split at hstep <;> cases hstep <;>
      exact ⟨by simp, hloop, by simp [OwnerAt.quitting], by simp, by simp, hstraight⟩
  case join =>
    split at hstep
    · next hreturned =>
      cases hstep
      exact ⟨by simp, hloop, by simp [OwnerAt.quitting], by simp, fun _ => hreturned, hstraight⟩
    · cases hstep
  case members =>
    cases hstep
    exact ⟨by simp, hloop, by simp [OwnerAt.quitting], by simp, fun _ => hjoined (.inl howner), hstraight⟩
  all_goals cases hstep

theorem Joining.step [DecidableEq T] [DecidableEq H] {s t : System T F H} {i : Input T F H} (h : Joining s)
    (hok : Awaits s i) (hstep : s.step i = some t) : Joining t := by
  cases i with
  | threadFunc => exact h.threadFunc hok hstep
  | startLoop => exact h.startLoop hstep
  | destruct => exact h.destruct hok hstep
  | loop i =>
    simp only [System.step] at hstep
    split at hstep
    · obtain ⟨loop, _, rfl⟩ := Option.map_eq_some_iff.mp hstep
      obtain ⟨hunborn, hloop, hheld, hpointer, hjoined, hstraight⟩ := h
      refine ⟨fun hstart => ?_, ?_, hheld, hpointer, fun hlate => ?_, hstraight⟩
      · simp only
        rw [hunborn hstart]
        exact FuncAt.follow_of_ne _ (by simp) (by simp)
      · rw [FuncAt.published_follow]
        exact hloop
      · simp only
        rw [hjoined hlate]
        exact FuncAt.follow_of_ne _ (by simp) (by simp)
    · cases hstep

/-- Destroying an `EventLoopThread` waits for its thread: in every run in which
`threadFunc` does not clear `loop_` in front of the destructor's test, if it has yet
to return, nor between that test and the call of `quit()`, it has returned when the
destructor returns, and the destructor has not called `quit()` through a pointer to a
loop that was cleared or destroyed. -/
theorem destructor_waits [DecidableEq T] [DecidableEq H] {s : System T F H}
    (hrun : (ownership T F H).Steps Awaits .construct s) :
    (s.owner = .destroyed → s.func = .returned) ∧ s.strayed = false := by
  have h := hrun.invariant (fun _ _ _ (h : Joining _) hok hstep => h.step hok hstep) Joining.construct
  exact ⟨fun hdestroyed => h.joined (.inr hdestroyed), h.straight⟩

/-- `loop()` starts, and then the destructor runs; `threadFunc` goes on to its end in
front of the join. -/
def startedAndDestroyed : List (Input Nat Nat Nat) :=
  started ++ [.loop (.advance .enter)] ++ destructorQuits ++
    [.loop (.advance .test), .threadFunc, .threadFunc, .threadFunc, .threadFunc, .destruct, .destruct]

theorem destructor_waits_started :
    ∃ s, (ownership Nat Nat Nat).run .construct startedAndDestroyed = some s ∧ s.owner = .destroyed ∧
      ((s.owner = .destroyed → s.func = .returned) ∧ s.strayed = false) := by
  have hruns : ((ownership Nat Nat Nat).run .construct startedAndDestroyed).map (fun s => s.owner) =
      some .destroyed := by
    decide +kernel
  obtain ⟨s, hrun, howner⟩ := Option.map_eq_some_iff.mp hruns
  exact ⟨s, hrun, howner, destructor_waits (Machine.steps_of_run hrun (by decide +kernel))⟩

/-- Another thread quits the loop, and `threadFunc` clears `loop_`. -/
def quitEarly : List (Input Nat Nat Nat) :=
  [.loop (.quit 1), .loop (.advance .test), .threadFunc, .threadFunc]

/-- If that happens in front of the destructor's test, the destructor returns while
`threadFunc` still holds the mutex; if it happens between the test and the call, the
destructor calls `quit()` through the pointer that was cleared. -/
theorem destructor_returns_early :
    (∃ s, (ownership Nat Nat Nat).run .construct
        (started ++ [.loop (.advance .enter)] ++ quitEarly ++ [.destruct, .destruct, .destruct]) = some s ∧
      s.owner = .destroyed ∧ s.func = .unlockAgain ∧ s.mutex_ = true ∧ s.thread_.detached = true) ∧
    ∃ s, (ownership Nat Nat Nat).run .construct
        (started ++ [.loop (.advance .enter), .destruct, .destruct, .destruct] ++ quitEarly ++ [.destruct]) = some s ∧
      s.strayed = true := by
  constructor
  · have hruns : ((ownership Nat Nat Nat).run .construct
        (started ++ [.loop (.advance .enter)] ++ quitEarly ++ [.destruct, .destruct, .destruct])).map
          (fun s => (s.owner, s.func, s.mutex_, s.thread_.detached)) =
            some (.destroyed, .unlockAgain, true, true) := by
      decide +kernel
    obtain ⟨s, hrun, heq⟩ := Option.map_eq_some_iff.mp hruns
    exact ⟨s, hrun, by simpa using heq⟩
  · have hruns : ((ownership Nat Nat Nat).run .construct
        (started ++ [.loop (.advance .enter), .destruct, .destruct, .destruct] ++ quitEarly ++ [.destruct])).map
          (fun s => s.strayed) = some true := by
      decide +kernel
    obtain ⟨s, hrun, heq⟩ := Option.map_eq_some_iff.mp hruns
    exact ⟨s, hrun, heq⟩

end muduo.event_loop_thread
