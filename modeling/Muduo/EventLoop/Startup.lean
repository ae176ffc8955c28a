import Muduo.EventLoop.Wakeup
import Muduo.EventLoopThread.Basic

open transition

namespace muduo.event_loop

variable {T F H : Type}

/-- The loop's thread is at `poll` with functors queued, the `eventfd` is not readable,
and no other thread is between its push and its write. -/
def Stuck (s : System T F H) : Prop :=
  s.thread.at_ = .polling ∧ s.thread.loop.pendingFunctors_ ≠ [] ∧ s.thread.loop.wakeups = 0 ∧
    ¬ WakeupUnderway s

theorem not_covered_iff {s : System T F H} : ¬ Covered s ↔
    s.thread.loop.pendingFunctors_ ≠ [] ∧ s.thread.loop.wakeups = 0 ∧ ¬ WakeupUnderway s := by
  unfold Covered
  rw [not_or, not_or, Nat.pos_iff_ne_zero, ne_eq, not_not]

/-- A loop with a record of the calls of `queueInLoop` that its own thread makes outside
of `loop()`. `owed` says that one of them has found the counter of the `eventfd` at 0
and no other thread on its way to write to it, and that no other thread has pushed or
written since. -/
structure Startup (T F H : Type) where
  system : System T F H
  owed : Prop

namespace Startup

def start : Startup T F H where
  system := .start
  owed := False

def owes (q : Startup T F H) : Input T F H → Prop
  | .ownPush _ => q.owed ∨
    q.system.thread.at_ = .outside ∧ q.system.thread.loop.wakeups = 0 ∧ ¬ WakeupUnderway q.system
  | .push _ _ => False
  | .wakeup _ => False
  | _ => q.owed

def step [DecidableEq T] [DecidableEq H] (q : Startup T F H) (i : Input T F H) : Option (Startup T F H) :=
  (q.system.step i).map fun system => { system, owed := q.owes i }

end Startup

/-- Every interleaving of a loop with other threads, with the record of its own calls. -/
def startup (T F H : Type) [DecidableEq T] [DecidableEq H] : Machine (Startup T F H) (Input T F H) where
  step := Startup.step

/-- The loop's thread goes on from the test of `quit_` to `poll` only when nothing is owed. -/
def NothingOwed (q : Startup T F H) (i : Input T F H) : Prop :=
  i = .advance .test → q.system.thread.loop.quit_ = false → ¬ q.owed

/-- In `outside` and `testing` no iteration of the loop has begun. -/
def Location.beforePoll {F H : Type} : Location F H → Bool
  | .outside => true
  | .testing => true
  | _ => false

/-- What a start-up keeps. Past the swap of an iteration every queued functor is covered,
unless the loop's own thread is still in the call or owes the wakeup; and what it
owes is not covered. -/
structure StartupInvariant (q : Startup T F H) : Prop where
  calling_eq : q.system.thread.loop.callingPendingFunctors_ = q.system.thread.at_.inFunctors
  own_may : q.system.own ≠ .outside → q.system.ownMayCall = true
  own_waking : q.system.own = .waking → q.system.thread.at_.inCallback = true
  own_pending : q.system.own ≠ .quitting
  covered : q.system.thread.at_.afterSwap = true →
    q.system.own ≠ .outside ∧ q.system.thread.at_.inCallback = true ∨ Covered q.system ∨ q.owed
  owed_before : q.owed → q.system.thread.at_.beforePoll = true
  owed_uncovered : q.owed → ¬ Covered q.system

theorem StartupInvariant.start : StartupInvariant (Startup.start : Startup T F H) :=
  ⟨rfl, fun hown => absurd rfl hown, by simp [Startup.start, System.start], by simp [Startup.start, System.start],
    fun _ => .inr (.inl (.inl rfl)), fun howed => howed.elim, fun howed => howed.elim⟩

/-- At `poll` the loop's own thread is in no call, so that the queue is covered. -/
theorem StartupInvariant.not_stuck {q : Startup T F H} (h : StartupInvariant q) : ¬ Stuck q.system := by
  rintro ⟨hpoll, hpending⟩
  rcases h.covered (by rw [hpoll]; rfl) with ⟨_, hinside⟩ | hcovered | howed
  · rw [hpoll] at hinside
    cases hinside
  · exact not_covered_iff.mpr hpending hcovered
  · have hbefore := h.owed_before howed
    rw [hpoll] at hbefore
    cases hbefore

/-- A step of the loop's own thread between bodies. -/
theorem StartupInvariant.advance [DecidableEq H] {q : Startup T F H} {a : Advance H}
    {thread : LoopThread (Posted T F) H} (h : StartupInvariant q) (hok : NothingOwed q (.advance a))
    (hown : q.system.own = .outside) (hadvance : q.system.thread.advance a = some thread)
    (executed : List (Posted T F)) :
    StartupInvariant { system := { q.system with thread, executed }, owed := q.owed } := by
  obtain ⟨hcalling, _, _, _, hcovered, hbefore, huncovered⟩ := h
  have hadvances := LoopThread.advances_of_advance hadvance
  have hidle (p : Prop) (hbusy : q.system.own ≠ .outside) : p := absurd hown hbusy
  have hwaking (hcall : q.system.own = .waking) : thread.at_.inCallback = true := by
    rw [hown] at hcall
    cases hcall
  have hquitting : q.system.own ≠ .quitting := by rw [hown]; decide
  -- Nothing is owed but in front of `poll`; there the queue stays as it is.
  have hsettled (hnot : ¬ q.owed)
      (hcalling' : thread.loop.callingPendingFunctors_ = thread.at_.inFunctors)
      (hcovered' : thread.at_.afterSwap = true → Covered { q.system with thread, executed }) :
      StartupInvariant { system := { q.system with thread, executed }, owed := q.owed } :=
    ⟨hcalling', hidle _, hwaking, hquitting, fun hafter => .inr (.inl (hcovered' hafter)),
      fun howed => absurd howed hnot, fun howed => absurd howed hnot⟩
  have hkeep (hnot : ¬ q.owed) (hafter : q.system.thread.at_.afterSwap = true) : Covered q.system := by
    rcases hcovered hafter with ⟨hbusy, _⟩ | hcovered | howed
    · exact absurd hown hbusy
    · exact hcovered
    · exact absurd howed hnot
  have hbehind (hlater : q.system.thread.at_.beforePoll = false) : ¬ q.owed := by
    intro howed
    rw [hbefore howed] at hlater
    cases hlater
  unfold NothingOwed at hok
  unfold Covered WakeupUnderway at hcovered huncovered hkeep hsettled
  generalize hloop : q.system.thread.loop = loop at hadvances hcalling hcovered huncovered hkeep hok
  generalize hat : q.system.thread.at_ = position at hadvances hcalling hcovered hkeep hbehind
  cases hadvances with
  | enter | leave =>
    refine ⟨hcalling, hidle _, hwaking, hquitting, fun hafter => ?_, fun _ => rfl, huncovered⟩
    rcases hcovered rfl with ⟨hbusy, _⟩ | hcovered | howed
    · exact absurd hown hbusy
    · exact .inr (.inl hcovered)
    · exact .inr (.inr howed)
  | stay hquit =>
    have hnot := hok rfl hquit
    exact hsettled hnot hcalling fun _ => hkeep hnot rfl
  | poll | drain | dispatch | handled => exact hsettled (hbehind rfl) hcalling (by simp [Location.afterSwap])
  | beginFunctors => exact hsettled (hbehind rfl) rfl (by simp [Location.afterSwap])
  | swap => exact hsettled (hbehind rfl) hcalling fun _ => .inl rfl
  | take | returned => exact hsettled (hbehind rfl) hcalling fun _ => hkeep (hbehind rfl) rfl
  | endFunctors => exact hsettled (hbehind rfl) rfl fun _ => hkeep (hbehind rfl) rfl

/-- Another thread that calls `quit()` was not on its way to a wakeup. -/
theorem WakeupUnderway.of_quitting [DecidableEq T] {s : System T F H} {t : T}
    (h : ∃ u, Function.update s.others t .quitting u = .pushed ∨ Function.update s.others t .quitting u = .waking) :
    WakeupUnderway s := by
  obtain ⟨u, hu⟩ := h
  by_cases hsame : u = t
  · subst u
    simp at hu
  · exact ⟨u, by simpa [hsame] using hu⟩

/-- Where the loop's own thread may make a call, and is in no body, it is outside. -/
theorem System.outside_of_ownMayCall {s : System T F H} (hmay : s.ownMayCall = true)
    (hinside : s.thread.at_.inCallback ≠ true) : s.thread.at_ = .outside := by
  unfold System.ownMayCall at hmay
  cases hat : s.thread.at_ <;> simp_all [Location.inCallback]

theorem Location.not_beforePoll {at_ : Location F H} (hinside : at_.inCallback = true) :
    at_.beforePoll = false := by
  cases at_ <;> first | rfl | cases hinside

/-- A push outside of `loop()` is covered by what others do, or owed. -/
theorem StartupInvariant.ownPush {q : Startup T F H} (h : StartupInvariant q) (cb : F)
    (hmaycall : q.system.ownMayCall = true) :
    StartupInvariant {
      system := { q.system.setLoop (q.system.thread.loop.push ⟨none, cb⟩) with
        own := .pushed, posted := q.system.posted ++ [⟨none, cb⟩] }
      owed := q.owes (.ownPush cb) } := by
  refine ⟨h.calling_eq, fun _ => hmaycall, by simp, by simp, fun hafter => ?_, ?_, ?_⟩
  · by_cases hinside : q.system.thread.at_.inCallback = true
    · exact .inl ⟨by simp, hinside⟩
    · have houtside := System.outside_of_ownMayCall hmaycall hinside
      by_cases hcounter : q.system.thread.loop.wakeups = 0
      · by_cases hunderway : WakeupUnderway q.system
        · exact .inr (.inl (.inr (.inr hunderway)))
        · exact .inr (.inr (.inr ⟨houtside, hcounter, hunderway⟩))
      · exact .inr (.inl (.inr (.inl (Nat.pos_of_ne_zero hcounter))))
  · rintro (howed | ⟨houtside, _⟩)
    · exact h.owed_before howed
    · change q.system.thread.at_.beforePoll = true
      rw [houtside]
      rfl
  · intro howed
    refine not_covered_iff.mpr ⟨by simp [System.setLoop], ?_⟩
    rcases howed with howed | ⟨_, hunheard⟩
    · exact (not_covered_iff.mp (h.owed_uncovered howed)).2
    · exact hunheard

/-- The test behind a push wakes the loop up past the swap of an iteration; outside of
`loop()` it does not, and what is covered or owed stays so. -/
theorem StartupInvariant.ownTest {q : Startup T F H} (h : StartupInvariant q) (hpushed : q.system.own = .pushed) :
    StartupInvariant {
      system := { q.system with own := if q.system.thread.loop.mustWake true then .waking else .outside }
      owed := q.owed } := by
  obtain ⟨hcalling, hmay, _, _, hcovered, hbefore, huncovered⟩ := h
  have hmaycall := hmay (by rw [hpushed]; decide)
  by_cases hinside : q.system.thread.at_.inCallback = true
  · refine ⟨hcalling, fun _ => hmaycall, fun _ => hinside, by split <;> simp, fun hafter => .inl ⟨?_, hinside⟩,
      hbefore, huncovered⟩
    have hwake := mustWake_of_afterSwap hcalling hinside hafter
    simp [hwake]
  · have houtside := System.outside_of_ownMayCall hmaycall hinside
    have hsleep : q.system.thread.loop.mustWake true = false := by
      rw [EventLoop.mustWake, hcalling, houtside]
      rfl
    refine ⟨hcalling, by simp [hsleep], by simp [hsleep], by simp [hsleep], fun hafter => .inr ?_,
      hbefore, huncovered⟩
    exact (hcovered hafter).resolve_left fun hbody => hinside hbody.2

/-- A step that goes to `poll` only with nothing owed keeps the invariant. -/
theorem StartupInvariant.step [DecidableEq T] [DecidableEq H] {q r : Startup T F H} {i : Input T F H}
    (h : StartupInvariant q) (hok : NothingOwed q i) (hstep : q.step i = some r) : StartupInvariant r := by
  obtain ⟨hcalling, hmay, hwaking, hpending, hcovered, hbefore, huncovered⟩ := id h
  obtain ⟨t, hsystem, rfl⟩ := Option.map_eq_some_iff.mp hstep
  cases System.stepped hsystem with
  | advance a thread hown hadvance => exact h.advance hok hown hadvance _
  | ownPush cb _ hmaycall => exact h.ownPush cb hmaycall
  | ownTest hpushed => exact h.ownTest hpushed
  | ownWakeup hcall =>
    have hfree : ¬ q.owed := by
      intro howed
      have hnot := Location.not_beforePoll (hwaking hcall)
      rw [hbefore howed] at hnot
      cases hnot
    exact ⟨hcalling, fun hbusy => absurd rfl hbusy, by simp, by simp,
      fun _ => .inr (.inl (.inr (.inl (EventLoop.wakeups_wakeup_pos _)))),
      fun howed => absurd howed hfree, fun howed => absurd howed hfree⟩
  | ownQuit => exact ⟨hcalling, hmay, hwaking, hpending, hcovered, hbefore, huncovered⟩
  | push t cb =>
    exact ⟨hcalling, hmay, hwaking, hpending, fun _ => .inr (.inl (.inr (.inr ⟨t, by simp⟩))),
      fun howed => howed.elim, fun howed => howed.elim⟩
  | test t hpushed =>
    have hunderway : Covered q.system := .inr (.inr ⟨t, .inl hpushed⟩)
    refine ⟨hcalling, hmay, hwaking, hpending, fun _ => .inr (.inl (.inr (.inr ⟨t, ?_⟩))),
      hbefore, fun howed => absurd hunderway (huncovered howed)⟩
    simp [EventLoop.mustWake]
  | wakeup t =>
    exact ⟨hcalling, hmay, hwaking, hpending,
      fun _ => .inr (.inl (.inr (.inl (EventLoop.wakeups_wakeup_pos _)))),
      fun howed => howed.elim, fun howed => howed.elim⟩
  | quit t houtside =>
    refine ⟨hcalling, hmay, hwaking, hpending, fun hafter => ?_, hbefore, fun howed => ?_⟩
    · rcases hcovered hafter with hbusy | (hempty | hpositive | hunderway) | howed
      · exact .inl hbusy
      · exact .inr (.inl (.inl hempty))
      · exact .inr (.inl (.inr (.inl hpositive)))
      · exact .inr (.inl (.inr (.inr (hunderway.update (.inl houtside)))))
      · exact .inr (.inr howed)
    · obtain ⟨hqueued, hcounter, hnobody⟩ := not_covered_iff.mp (huncovered howed)
      exact not_covered_iff.mpr ⟨hqueued, hcounter, fun hunderway => hnobody (.of_quitting hunderway)⟩

/-- Going on to `poll` with a wakeup owed leaves the loop stuck. -/
theorem StartupInvariant.stuck [DecidableEq T] [DecidableEq H] {q r : Startup T F H} {i : Input T F H}
    (h : StartupInvariant q) (hnot : ¬ NothingOwed q i) (hstep : q.step i = some r) : Stuck r.system := by
  obtain ⟨rfl, hrest⟩ := Classical.not_imp.mp hnot
  obtain ⟨hquit, howed⟩ := Classical.not_imp.mp hrest
  have huncovered := not_covered_iff.mp (h.owed_uncovered (Classical.not_not.mp howed))
  obtain ⟨t, hsystem, rfl⟩ := Option.map_eq_some_iff.mp hstep
  cases System.stepped hsystem with
  | advance _ thread _ hadvance =>
    have hadvances := LoopThread.advances_of_advance hadvance
    generalize hloop : q.system.thread.loop = loop at hadvances huncovered hquit
    generalize q.system.thread.at_ = position at hadvances
    cases hadvances with
    | leave hleave =>
      rw [hquit] at hleave
      cases hleave
    | stay => exact ⟨rfl, huncovered⟩

/-- The record does not change what the loop does. -/
theorem run_startup [DecidableEq T] [DecidableEq H] (q : Startup T F H) (is : List (Input T F H)) :
    (interleaving T F H).run q.system is = ((startup T F H).run q is).map Startup.system := by
  induction is generalizing q with
  | nil => rfl
  | cons i is ih =>
    cases hsystem : q.system.step i with
    | none => simp [Machine.run, interleaving, startup, Startup.step, hsystem]
    | some t =>
      have hrest := ih { system := t, owed := q.owes i }
      simp only [interleaving, startup] at hrest
      simp [Machine.run, interleaving, startup, Startup.step, hsystem, hrest]

/-- Work queued outside of `loop()` is not stuck behind a `poll` that blocks, in any state
of a run, exactly when the loop's thread never goes on to `poll` with a wakeup owed: each
functor that it has queued there has found the `eventfd` readable or another thread on
its way to write to it, or another thread has pushed or written since. -/
theorem never_stuck_iff [DecidableEq T] [DecidableEq H] {is : List (Input T F H)} {u : System T F H}
    (hrun : (interleaving T F H).run System.start is = some u) :
    (∀ done s, done <+: is → (interleaving T F H).run System.start done = some s → ¬ Stuck s) ↔
      (startup T F H).Along NothingOwed Startup.start is := by
  have hproject (js : List (Input T F H)) : (interleaving T F H).run System.start js =
      ((startup T F H).run Startup.start js).map Startup.system := run_startup Startup.start js
  rw [hproject] at hrun
  obtain ⟨r, hrun, _⟩ := Option.map_eq_some_iff.mp hrun
  have hiff : (∀ done q, done <+: is → (startup T F H).run Startup.start done = some q → ¬ Stuck q.system) ↔
      (startup T F H).Along NothingOwed Startup.start is :=
    Machine.along_iff_forall_prefix (fun _ => True) StartupInvariant (fun q => ¬ Stuck q.system)
      (fun _ h => h.not_stuck) (fun _ _ _ h _ hok hstep => h.step hok hstep)
      (fun _ _ _ h _ hnot hstep => not_not_intro (h.stuck hnot hstep))
      (fun _ _ => trivial) StartupInvariant.start hrun
  rw [← hiff]
  constructor
  · intro hall done q hdone hq
    exact hall done q.system hdone (by rw [hproject, hq]; rfl)
  · intro hall done s hdone hs
    rw [hproject] at hs
    obtain ⟨q, hq, rfl⟩ := Option.map_eq_some_iff.mp hs
    exact hall done q hdone hq

/-- The main program queues a functor, and another thread queues one before the first `poll`. -/
def heardInTime : List (Input Nat Nat Nat) :=
  [.ownPush 5, .ownTest, .advance .enter, .push 1 7, .advance .test]

theorem never_stuck_iff_heard :
    ∃ u, (interleaving Nat Nat Nat).run System.start heardInTime = some u ∧
      ∀ done s, done <+: heardInTime → (interleaving Nat Nat Nat).run System.start done = some s → ¬ Stuck s := by
  obtain ⟨u, hrun⟩ : ∃ u, (interleaving Nat Nat Nat).run System.start heardInTime = some u := ⟨_, rfl⟩
  refine ⟨u, hrun, (never_stuck_iff hrun).mpr ?_⟩
  exact ⟨nofun, nofun, nofun, nofun, fun _ _ => not_false, trivial⟩

/-- A thread's initialising callback queues a functor on its loop. -/
def callbackQueues : List (event_loop_thread.Input Nat Nat Nat) :=
  [.startLoop, .threadFunc, .threadFunc, .loop (.ownPush 5), .loop .ownTest, .threadFunc, .threadFunc,
    .threadFunc, .threadFunc, .threadFunc, .loop (.advance .enter), .loop (.advance .test)]

/-- A functor that the main program, or an initialising callback, queues before `loop()`
waits behind the first `poll`. -/
theorem stuck_at_first_poll :
    (∃ s, (interleaving Nat Nat Nat).run System.start
      [.ownPush 5, .ownTest, .advance .enter, .advance .test] = some s ∧ Stuck s) ∧
    ∃ s, (event_loop_thread.ownership Nat Nat Nat).run event_loop_thread.System.construct callbackQueues = some s ∧
      Stuck s.loop := by
  refine ⟨⟨_, rfl, rfl, by decide, rfl, ?_⟩, ⟨_, rfl, rfl, by decide, rfl, ?_⟩⟩
  · rintro ⟨t, hpushed | hwaking⟩
    · cases hpushed
    · cases hwaking
  · rintro ⟨t, hpushed | hwaking⟩
    · cases hpushed
    · cases hwaking

end muduo.event_loop
