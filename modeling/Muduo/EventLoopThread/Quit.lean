import Muduo.EventLoopThread.Basic
import Muduo.EventLoop.Quit

open transition
open muduo.event_loop

namespace muduo.event_loop_thread

variable {T F H : Type}

/-- `loop()` starts, and clears `quit_`, before anybody has called `quit()` on the
published loop. -/
def System.entersUnasked (s : System T F H) : Input T F H → Bool
  | .loop (.advance .enter) => !s.asked
  | _ => true

def EntersUnasked (s : System T F H) (i : Input T F H) : Prop := s.entersUnasked i = true

instance (s : System T F H) (i : Input T F H) : Decidable (EntersUnasked s i) :=
  inferInstanceAs (Decidable (s.entersUnasked i = true))

/-- A loop test that comes after a call of `quit()` on the published loop sees `quit_`. -/
def System.Remembers (s : System T F H) : Prop :=
  s.asked = true → s.loop.thread.at_ = .testing → s.loop.thread.loop.quit_ = true

/-- While `loop()` runs, a request is kept; its position is `looping` all that time. -/
structure Remembering (s : System T F H) : Prop where
  unborn : s.owner = .start → s.func = .unborn
  inside : s.loop.thread.at_ = .outside ↔ s.func ≠ .looping
  kept : s.func = .looping → s.asked = true → s.loop.thread.loop.quit_ = true

theorem Remembering.construct : Remembering (System.construct : System T F H) :=
  ⟨fun _ => rfl, by simp [System.construct, event_loop.System.start, LoopThread.construct],
    fun hlooping => by cases hlooping⟩

theorem Remembering.remembers {s : System T F H} (h : Remembering s) : s.Remembers := by
  intro hasked htesting
  refine h.kept ?_ hasked
  by_contra hnot
  have houtside := h.inside.mpr hnot
  rw [htesting] at houtside
  cases houtside

/-- Outside of `loop()` the thread works on no more than the mutex and the pointer. -/
theorem threadFunc_loop {s t : System T F H} (hstep : s.threadFunc = some t) :
    s.func ≠ .looping ∧ t.func ≠ .looping ∧ (t.loop = s.loop ∨ t.loop = .start) ∧ t.owner = s.owner ∧
      s.func ≠ .unborn := by
  unfold System.threadFunc at hstep
  cases hfunc : s.func <;> simp only [hfunc] at hstep
  case unborn | enter | looping | returned => cases hstep
  case callback | lock | lockAgain =>
    split at hstep
    · cases hstep
      simp
    · cases hstep
  case post | construct | publish | notify | unlock | clear | unlockAgain | destroy =>
    cases hstep
    simp

theorem startLoop_loop {s t : System T F H} (hstep : s.startLoop = some t) :
    t.loop = s.loop ∧ t.asked = s.asked ∧ t.owner ≠ .start ∧
      (t.func = s.func ∨ s.owner = .start ∧ t.func = .post) := by
  unfold System.startLoop at hstep
  cases howner : s.owner <;> simp only [howner] at hstep
  case start =>
    cases hstep
    simp
  case waitPosted | lock | wait | blocked =>
    split at hstep <;> cases hstep <;> simp
  case take =>
    cases hstep
    simp
  all_goals cases hstep

theorem destruct_loop {s t : System T F H} (hstep : s.destruct = some t) :
    t.func = s.func ∧ t.owner ≠ .start ∧ t.loop.thread.at_ = s.loop.thread.at_ ∧
      (t.asked = s.asked ∧ t.loop.thread.loop.quit_ = s.loop.thread.loop.quit_ ∨
        t.loop.thread.loop.quit_ = true) := by
  unfold System.destruct at hstep
  cases howner : s.owner <;> simp only [howner] at hstep
  case exit | load | members =>
    cases hstep
    simp
  case test =>
    cases hstep
    split <;> simp
  case call pointer =>
    split at hstep <;> cases hstep <;> simp [event_loop.System.setLoop]
  case wakeup pointer =>
    split at hstep <;> cases hstep <;> simp [event_loop.System.setLoop, EventLoop.wakeup]
  case join =>
    split at hstep <;> cases hstep
    simp
  all_goals cases hstep

theorem FuncAt.follow_outside {func : FuncAt} (hfunc : func ≠ .looping) :
    func.follow (Location.outside : Location F H) = func := by
  unfold FuncAt.follow
  split <;> simp_all

theorem FuncAt.follow_of_ne {func : FuncAt} (at_ : Location F H) (henter : func ≠ .enter)
    (hlooping : func ≠ .looping) : func.follow at_ = func := by
  unfold FuncAt.follow
  split <;> simp_all

theorem FuncAt.follow_looping {at_ : Location F H} (hat : at_ ≠ .outside) :
    FuncAt.looping.follow at_ = .looping := by
  unfold FuncAt.follow
  split <;> simp_all

/-- A step on the loop starts `loop()`, or leaves `threadFunc` in `loop()` exactly as
long as the loop's thread is in it. -/
theorem Remembering.loop_step [DecidableEq T] [DecidableEq H] {s : System T F H} {i : event_loop.Input T F H}
    {loop : event_loop.System T F H} (h : Remembering s) (hmay : s.mayLoop i = true)
    (hloop : s.loop.step i = some loop) :
    i = .advance .enter ∧ loop.thread.at_ = .testing ∧ loop.thread.loop.quit_ = false ∧
      s.func.follow loop.thread.at_ = .looping ∨
    i ≠ .advance .enter ∧ (loop.thread.at_ = .outside ↔ s.func.follow loop.thread.at_ ≠ .looping) ∧
      (s.func.follow loop.thread.at_ = .looping →
        s.func = .looping ∧ loop.thread.loop.quit_ = (s.loop.thread.loop.quit_ || i.quitter.isSome)) := by
  cases quit_change hloop with
  | enter _ hat hquit =>
    have hfunc : s.func = .enter := by simpa [System.mayLoop] using hmay
    exact .inl ⟨rfl, hat, hquit, by rw [hfunc, hat]; rfl⟩
  | leave _ hbefore _ hat =>
    have hfunc : s.func = .looping := by simpa [System.mayLoop] using hmay
    refine .inr ⟨by simp, ?_, ?_⟩ <;> simp [hfunc, hat, FuncAt.follow]
  | advance a _ ha hquit _ hat =>
    have hfunc : s.func = .looping := by
      cases a <;> first | exact absurd rfl ha | simpa [System.mayLoop] using hmay
    have hstays : s.func.follow loop.thread.at_ = .looping := by
      rw [hfunc]
      exact FuncAt.follow_looping hat
    exact .inr ⟨by simpa using ha, by simp [hstays, hat], fun _ => ⟨hfunc, by simpa [Input.quitter] using hquit⟩⟩
  | call _ _ hi hat hquit =>
    have hsame : s.func.follow loop.thread.at_ = s.func := by
      rw [hat]
      by_cases hlooping : s.func = .looping
      · rw [hlooping]
        exact FuncAt.follow_looping fun houtside => h.inside.mp houtside hlooping
      · rw [h.inside.mpr hlooping]
        exact FuncAt.follow_outside hlooping
    rw [hsame, hat]
    exact .inr ⟨hi .enter, h.inside, fun hlooping => ⟨hlooping, hquit⟩⟩

/-- Starting `loop()` unasked, and every other step, keeps requests. -/
theorem Remembering.step [DecidableEq T] [DecidableEq H] {s t : System T F H} {i : Input T F H}
    (h : Remembering s) (hok : EntersUnasked s i) (hstep : s.step i = some t) : Remembering t := by
  cases i with
  | threadFunc =>
    obtain ⟨hfunc, hfunc', hloop, howner, hborn⟩ := threadFunc_loop hstep
    refine ⟨fun hstart => absurd (h.unborn (howner.symm.trans hstart)) hborn, iff_of_true ?_ hfunc',
      fun hlooping => absurd hlooping hfunc'⟩
    rcases hloop with hloop | hloop <;> rw [hloop]
    · exact h.inside.mpr hfunc
    · rfl
  | startLoop =>
    obtain ⟨hloop, hasked, howner, hfunc⟩ := startLoop_loop hstep
    refine ⟨fun hstart => absurd hstart howner, ?_, ?_⟩ <;> rw [hloop]
    · rcases hfunc with hfunc | ⟨hstart, hfunc⟩
      · rw [hfunc]
        exact h.inside
      · rw [hfunc, h.inside, h.unborn hstart]
        simp
    · rcases hfunc with hfunc | ⟨_, hfunc⟩ <;> rw [hfunc]
      · rw [hasked]
        exact h.kept
      · simp
  | destruct =>
    obtain ⟨hfunc, howner, hat, hquit⟩ := destruct_loop hstep
    refine ⟨fun hstart => absurd hstart howner, by rw [hfunc, hat]; exact h.inside, fun hlooping hasked => ?_⟩
    rcases hquit with ⟨hasked', hquit⟩ | hquit
    · rw [hquit]
      exact h.kept (hfunc.symm.trans hlooping) (hasked'.symm.trans hasked)
    · exact hquit
  | loop i =>
    simp only [System.step] at hstep
    split at hstep
    · next hmay =>
      obtain ⟨loop, hloop, rfl⟩ := Option.map_eq_some_iff.mp hstep
      have hunborn : s.owner = .start → s.func.follow loop.thread.at_ = .unborn := by
        intro hstart
        rw [h.unborn hstart]
        exact FuncAt.follow_of_ne _ (by simp) (by simp)
      rcases h.loop_step hmay hloop with ⟨rfl, hat, _, hfunc⟩ | ⟨_, hinside, hlooping⟩
      · refine ⟨hunborn, iff_of_false (by simp [hat]) (fun hne => hne hfunc), fun _ hasked => ?_⟩
        have hunasked : s.asked = false := by simpa [EntersUnasked, System.entersUnasked] using hok
        simp [hunasked, Input.quitter] at hasked
      · refine ⟨hunborn, hinside, fun hfunc hasked => ?_⟩
        obtain ⟨hbefore, hquit⟩ := hlooping hfunc
        rw [hquit]
        rcases Bool.or_eq_true_iff.mp hasked with hasked | hasks
        · rw [h.kept hbefore hasked]
          rfl
        · rw [(Bool.and_eq_true_iff.mp hasks).1, Bool.or_true]
    · cases hstep

/-- Starting `loop()` behind a request forgets it. -/
theorem Remembering.forgets [DecidableEq T] [DecidableEq H] {s t : System T F H} {i : Input T F H}
    (h : Remembering s) (hlate : ¬ EntersUnasked s i) (hstep : s.step i = some t) : ¬ t.Remembers := by
  obtain ⟨rfl, hasked⟩ : i = .loop (.advance .enter) ∧ s.asked = true := by
    unfold EntersUnasked System.entersUnasked at hlate
    split at hlate
    · exact ⟨rfl, by simpa using hlate⟩
    · exact absurd rfl hlate
  simp only [System.step] at hstep
  split at hstep
  · next hmay =>
    obtain ⟨loop, hloop, rfl⟩ := Option.map_eq_some_iff.mp hstep
    rcases h.loop_step hmay hloop with ⟨_, hat, hquit, _⟩ | ⟨hne, _⟩
    · intro hremembers
      have hkept := hremembers (by simp [hasked]) hat
      rw [hquit] at hkept
      cases hkept
    · exact absurd rfl hne
  · cases hstep

/-- A quit request is never lost: along every run of an `EventLoopThread`, `quit_` is set
in every state in which the loop is at its test behind a call of `quit()` on the
published loop, exactly if `loop()` does not start behind such a call. -/
theorem quit_request_kept [DecidableEq T] [DecidableEq H] {s : System T F H} {inputs : List (Input T F H)}
    (hrun : (ownership T F H).run .construct inputs = some s) :
    (∀ done t, done <+: inputs → (ownership T F H).run .construct done = some t →
      t.asked = true → t.loop.thread.at_ = .testing → t.loop.thread.loop.quit_ = true) ↔
    (ownership T F H).Along EntersUnasked .construct inputs :=
  Machine.along_iff_forall_prefix (fun _ => True) Remembering System.Remembers (fun _ h => h.remembers)
    (fun _ _ _ h _ hok hstep => h.step hok hstep) (fun _ _ _ h _ hlate hstep => h.forgets hlate hstep)
    (fun _ _ => trivial) .construct hrun

/-- The thread is started, publishes its loop, and `startLoop` returns. -/
def started : List (Input Nat Nat Nat) :=
  [.startLoop, .threadFunc, .startLoop, .threadFunc, .threadFunc, .threadFunc, .threadFunc, .threadFunc,
    .threadFunc, .startLoop, .startLoop, .startLoop]

/-- The destructor runs up to the end of its call of `quit()`. -/
def destructorQuits : List (Input Nat Nat Nat) := [.destruct, .destruct, .destruct, .destruct, .destruct]

theorem quit_request_kept_looping :
    ∃ s, (ownership Nat Nat Nat).run .construct
        (started ++ [.loop (.advance .enter)] ++ destructorQuits) = some s ∧
      ∀ done t, done <+: started ++ [.loop (.advance .enter)] ++ destructorQuits →
        (ownership Nat Nat Nat).run .construct done = some t →
        t.asked = true → t.loop.thread.at_ = .testing → t.loop.thread.loop.quit_ = true := by
  have hruns : ((ownership Nat Nat Nat).run .construct
      (started ++ [.loop (.advance .enter)] ++ destructorQuits)).isSome = true := by
    decide +kernel
  obtain ⟨s, hrun⟩ := Option.isSome_iff_exists.mp hruns
  exact ⟨s, hrun, (quit_request_kept hrun).mpr (by decide +kernel)⟩

/-- The destructor quits the published loop before it starts: the first loop test of
`loop()` does not see the request, and the destructor waits in `join`. -/
theorem quit_request_forgotten :
    ∃ s, (ownership Nat Nat Nat).run .construct
        (started ++ destructorQuits ++ [.loop (.advance .enter)]) = some s ∧
      s.asked = true ∧ s.loop.thread.at_ = .testing ∧ s.loop.thread.loop.quit_ = false ∧ s.owner = .join := by
  have hruns : ((ownership Nat Nat Nat).run .construct
      (started ++ destructorQuits ++ [.loop (.advance .enter)])).map
        (fun s => (s.asked, s.loop.thread.at_, s.loop.thread.loop.quit_, s.owner)) =
          some (true, .testing, false, .join) := by
    decide +kernel
  obtain ⟨s, hrun, heq⟩ := Option.map_eq_some_iff.mp hruns
  exact ⟨s, hrun, by simpa using heq⟩

end muduo.event_loop_thread
