import Muduo.EventLoop.Basic

open transition

namespace muduo.event_loop

variable {T F H : Type}

/-- The loop's own thread calls `queueInLoop` only in bodies that `loop()` runs. -/
def OwnCallsInCallbacks (s : System T F H) : Input T F H → Prop
  | .ownPush _ => s.thread.at_.inCallback = true
  | _ => True

/-- Some other thread has pushed a functor and has yet to write to the `eventfd`. -/
def WakeupUnderway (s : System T F H) : Prop :=
  ∃ t, s.others t = .pushed ∨ s.others t = .waking

/-- A queued functor will keep the next `poll` from blocking. -/
def Covered (s : System T F H) : Prop :=
  s.thread.loop.pendingFunctors_ = [] ∨ 0 < s.thread.loop.wakeups ∨ WakeupUnderway s

/-- What makes wakeups reliable. Past the swap of an iteration every queued functor
is covered, where the loop's own thread may itself still owe the wakeup; in front
of the swap nothing is needed, because the swap will take every queued functor. -/
structure WakeupInvariant (s : System T F H) : Prop where
  calling_eq : s.thread.loop.callingPendingFunctors_ = s.thread.at_.inFunctors
  own_inside : s.own ≠ .outside → s.thread.at_.inCallback = true
  own_pending : s.own ≠ .quitting
  covered : s.thread.at_.afterSwap = true → s.own ≠ .outside ∨ Covered s

theorem WakeupInvariant.start : WakeupInvariant (System.start : System T F H) :=
  ⟨rfl, fun hown => absurd rfl hown, by simp [System.start], fun _ => .inr (.inl rfl)⟩

/-- Covering survives whatever another thread does to its own position, as long as
that thread was not the one that covered. -/
theorem WakeupUnderway.update [DecidableEq T] {s : System T F H} {t : T} {call : Call}
    (h : WakeupUnderway s) (hother : s.others t = .outside ∨ call = .pushed ∨ call = .waking) :
    ∃ u, Function.update s.others t call u = .pushed ∨ Function.update s.others t call u = .waking := by
  obtain ⟨u, hu⟩ := h
  by_cases hsame : u = t
  · subst u
    rcases hother with houtside | hcall
    · rw [houtside] at hu
      rcases hu with hu | hu <;> cases hu
    · exact ⟨t, by simpa using hcall⟩
  · exact ⟨u, by simpa [hsame] using hu⟩

/-- A body that runs past the swap is a functor, so that `queueInLoop` wakes the loop up. -/
theorem mustWake_of_afterSwap {s : System T F H}
    (hcalling : s.thread.loop.callingPendingFunctors_ = s.thread.at_.inFunctors)
    (hinside : s.thread.at_.inCallback = true) (hafter : s.thread.at_.afterSwap = true) :
    s.thread.loop.mustWake true = true := by
  rw [EventLoop.mustWake, hcalling]
  cases hat : s.thread.at_ with
  | running => rfl
  | handling =>
    rw [hat] at hafter
    cases hafter
  | outside | testing | polling | dispatching | swapping | batch =>
    rw [hat] at hinside
    cases hinside

/-- A step of the loop's own thread between bodies. -/
theorem WakeupInvariant.advance [DecidableEq H] {s : System T F H} {a : Advance H}
    {thread : LoopThread (Posted T F) H} (h : WakeupInvariant s) (hown : s.own = .outside)
    (hadvance : s.thread.advance a = some thread) (executed : List (Posted T F)) :
    WakeupInvariant { s with thread, executed } := by
  obtain ⟨hcalling, _, _, hcovered⟩ := h
  have hadvances := LoopThread.advances_of_advance hadvance
  have hkeep (hafter : s.thread.at_.afterSwap = true) : Covered s := by
    rcases hcovered hafter with hbusy | hcovered
    · exact absurd hown hbusy
    · exact hcovered
  generalize hloop : s.thread.loop = loop at hadvances
  generalize hat : s.thread.at_ = position at hadvances
  have hidle : ∀ p : Prop, s.own ≠ .outside → p := fun p hbusy => absurd hown hbusy
  have hquitting : s.own ≠ .quitting := by rw [hown]; decide
  unfold Covered WakeupUnderway at hkeep
  rw [hloop, hat] at hkeep
  rw [hloop, hat] at hcalling
  cases hadvances with
  | enter => exact ⟨hcalling, hidle _, hquitting, fun _ => .inr (hkeep rfl)⟩
  | leave => exact ⟨hcalling, hidle _, hquitting, fun _ => .inr (hkeep rfl)⟩
  | stay => exact ⟨hcalling, hidle _, hquitting, fun _ => .inr (hkeep rfl)⟩
  | poll => exact ⟨hcalling, hidle _, hquitting, by simp [Location.afterSwap]⟩
  | drain => exact ⟨hcalling, hidle _, hquitting, by simp [Location.afterSwap]⟩
  | dispatch => exact ⟨hcalling, hidle _, hquitting, by simp [Location.afterSwap]⟩
  | handled => exact ⟨hcalling, hidle _, hquitting, by simp [Location.afterSwap]⟩
  | beginFunctors => exact ⟨rfl, hidle _, hquitting, by simp [Location.afterSwap]⟩
  | swap => exact ⟨hcalling, hidle _, hquitting, fun _ => .inr (.inl rfl)⟩
  | take => exact ⟨hcalling, hidle _, hquitting, fun _ => .inr (hkeep rfl)⟩
  | returned => exact ⟨hcalling, hidle _, hquitting, fun _ => .inr (hkeep rfl)⟩
  | endFunctors => exact ⟨rfl, hidle _, hquitting, fun _ => .inr (hkeep rfl)⟩

/-- Each step keeps the wakeup invariant, if the loop's own thread calls from bodies only. -/
theorem WakeupInvariant.step [DecidableEq T] [DecidableEq H] {s t : System T F H} {i : Input T F H}
    (h : WakeupInvariant s) (hcalls : OwnCallsInCallbacks s i) (hstep : s.step i = some t) :
    WakeupInvariant t := by
  obtain ⟨hcalling, hinside, hquitting, hcovered⟩ := id h
  cases System.stepped hstep with
  | advance a thread hown hadvance => exact h.advance hown hadvance _
  | ownPush cb => exact ⟨hcalling, fun _ => hcalls, by simp, fun _ => .inl (by simp)⟩
  | ownTest hpushed =>
    have hinside := hinside (by rw [hpushed]; decide)
    refine ⟨hcalling, fun _ => hinside, by split <;> simp, fun hafter => .inl ?_⟩
    have hwake := mustWake_of_afterSwap hcalling hinside hafter
    simp [hwake]
  | ownWakeup =>
    exact ⟨hcalling, fun hbusy => absurd rfl hbusy, by simp,
      fun _ => .inr (.inr (.inl (EventLoop.wakeups_wakeup_pos _)))⟩
  | ownQuit => exact ⟨hcalling, hinside, hquitting, hcovered⟩
  | push t cb => exact ⟨hcalling, hinside, hquitting, fun _ => .inr (.inr (.inr ⟨t, by simp⟩))⟩
  | test t =>
    refine ⟨hcalling, hinside, hquitting, fun _ => .inr (.inr (.inr ⟨t, ?_⟩))⟩
    simp [EventLoop.mustWake]
  | wakeup t =>
    exact ⟨hcalling, hinside, hquitting, fun _ => .inr (.inr (.inl (EventLoop.wakeups_wakeup_pos _)))⟩
  | quit t houtside =>
    refine ⟨hcalling, hinside, hquitting, fun hafter => ?_⟩
    rcases hcovered hafter with hbusy | hempty | hpositive | hunderway
    · exact .inl hbusy
    · exact .inr (.inl hempty)
    · exact .inr (.inr (.inl hpositive))
    · exact .inr (.inr (.inr (hunderway.update (.inl houtside))))

/-- No wakeup is lost: whenever the loop's thread is at `poll` with functors queued,
the `eventfd` is readable, so that `poll` does not block, or another thread has
pushed and is still going to write to it. -/
theorem no_lost_wakeup [DecidableEq T] [DecidableEq H] {s : System T F H}
    (hrun : (interleaving T F H).Steps OwnCallsInCallbacks System.start s)
    (hpoll : s.thread.at_ = .polling) (hpending : s.thread.loop.pendingFunctors_ ≠ []) :
    0 < s.thread.loop.wakeups ∨ ∃ t, s.others t = .pushed ∨ s.others t = .waking := by
  have h := hrun.invariant (fun _ _ _ h hcalls hstep => h.step hcalls hstep) WakeupInvariant.start
  rcases h.covered (by rw [hpoll]; rfl) with hbusy | hempty | hcovered
  · have hinside := h.own_inside hbusy
    rw [hpoll] at hinside
    cases hinside
  · exact absurd hempty hpending
  · exact hcovered

/-- A thread pushes while the loop is at `poll` and has not written yet. -/
theorem no_lost_wakeup_pushed :
    ∃ s, (interleaving Nat Nat Nat).run System.start [.advance .enter, .advance .test, .push 1 7] = some s ∧
      (0 < s.thread.loop.wakeups ∨ ∃ t, s.others t = .pushed ∨ s.others t = .waking) := by
  obtain ⟨s, hrun, hpoll, hpending⟩ : ∃ s, (interleaving Nat Nat Nat).run System.start
      [.advance .enter, .advance .test, .push 1 7] = some s ∧ s.thread.at_ = .polling ∧
      s.thread.loop.pendingFunctors_ ≠ [] := ⟨_, rfl, rfl, by decide⟩
  exact ⟨s, hrun, no_lost_wakeup (Machine.steps_of_run hrun
    (Machine.along_of_forall (by simp [OwnCallsInCallbacks]) _)) hpoll hpending⟩

end muduo.event_loop
