import Muduo.EventLoop.Functors

open transition fifo

namespace muduo.event_loop

variable {T F H : Type}

/-- Between the swap of an iteration and the loop test behind it, or at the first loop test
of `loop()`, which no swap comes before. -/
def Location.nearTest {F H : Type} : Location F H → Bool
  | .testing => true
  | .batch _ => true
  | .running _ _ => true
  | _ => false

/-- What a step can do to the queue, the batch and the flags of a loop: one way for
each kind of step that matters for quitting. -/
inductive QuitChange (s : System T F H) : Input T F H → System T F H → Prop where
  | enter (t : System T F H) (hat : t.thread.at_ = .testing) (hquit : t.thread.loop.quit_ = false)
      (hposted : t.posted = s.posted) : QuitChange s (.advance .enter) t
  | leave (t : System T F H) (hbefore : s.thread.at_ = .testing) (hquit : s.thread.loop.quit_ = true)
      (hat : t.thread.at_ = .outside) (hposted : t.posted = s.posted) : QuitChange s (.advance .test) t
  | advance (a : Advance H) (t : System T F H) (ha : a ≠ .enter)
      (hquit : t.thread.loop.quit_ = s.thread.loop.quit_) (hposted : t.posted = s.posted)
      (hat : t.thread.at_ ≠ .outside) (hserved : t.thread.loop.pendingFunctors_ = [] ∨
        t.thread.loop.pendingFunctors_ = s.thread.loop.pendingFunctors_ ∧
          (t.thread.at_.nearTest = true → s.thread.at_.nearTest = true)) :
      QuitChange s (.advance a) t
  | call (i : Input T F H) (t : System T F H) (hi : ∀ a, i ≠ .advance a) (hat : t.thread.at_ = s.thread.at_)
      (hquit : t.thread.loop.quit_ = (s.thread.loop.quit_ || i.quitter.isSome))
      (hposted : ∃ news, t.posted = s.posted ++ news ∧
        t.thread.loop.pendingFunctors_ = s.thread.loop.pendingFunctors_ ++ news)
      (hquiet : i.quitter.isSome = true → t.posted = s.posted) : QuitChange s i t

theorem quit_change [DecidableEq T] [DecidableEq H] {s t : System T F H} {i : Input T F H}
    (hstep : s.step i = some t) : QuitChange s i t := by
  have hcall {t : System T F H} (news : List (Posted T F)) (hi : ∀ a, i ≠ .advance a)
      (hat : t.thread.at_ = s.thread.at_)
      (hquit : t.thread.loop.quit_ = (s.thread.loop.quit_ || i.quitter.isSome))
      (hposted : t.posted = s.posted ++ news)
      (hpending : t.thread.loop.pendingFunctors_ = s.thread.loop.pendingFunctors_ ++ news)
      (hquiet : i.quitter.isSome = true → news = []) : QuitChange s i t :=
    .call i t hi hat hquit ⟨news, hposted, hpending⟩ fun hsome => by
      rw [hposted, hquiet hsome, List.append_nil]
  cases System.stepped hstep with
  | advance a thread _ hadvance =>
    have hadvances := LoopThread.advances_of_advance hadvance
    generalize hloop : s.thread.loop = loop at hadvances
    generalize hat : s.thread.at_ = position at hadvances
    cases hadvances with
    | enter => exact .enter _ rfl rfl rfl
    | leave hquit => exact .leave _ hat (by rw [hloop, hquit]) rfl rfl
    | swap => exact .advance _ _ (by simp) (by rw [hloop]) rfl (by simp) (.inl rfl)
    | stay | poll | drain | dispatch | handled | beginFunctors | take | returned | endFunctors =>
      refine .advance _ _ (by simp) (by simp [hloop, EventLoop.handleRead]) rfl (by simp) (.inr ⟨?_, ?_⟩)
      · simp [hloop, EventLoop.handleRead]
      · simp [hat, Location.nearTest]
  | ownPush cb =>
    exact hcall [⟨none, cb⟩] (by simp) rfl (by simp [System.setLoop, EventLoop.push, Input.quitter]) rfl rfl
      (by simp [Input.quitter])
  | push t cb =>
    exact hcall [⟨some t, cb⟩] (by simp) rfl (by simp [System.setLoop, EventLoop.push, Input.quitter]) rfl rfl
      (by simp [Input.quitter])
  | ownTest | test | ownWakeup | wakeup | ownQuit | quit =>
    exact hcall [] (by simp) rfl (by simp [System.setLoop, EventLoop.quit, EventLoop.wakeup, Input.quitter])
      (by simp [System.setLoop]) (by simp [System.setLoop, EventLoop.quit]) (fun _ => rfl)

/-- A loop among threads that ask it to quit. `covered` records for each thread how
many pushes there were when it last called `quit()`. -/
structure Quitting (T F H : Type) where
  system : System T F H
  covered : Option T → Nat

/-- Whether some queued functor is covered: the thread that pushed it has called
`quit()` since. -/
def System.owes (s : System T F H) (covered : Option T → Nat) : Bool :=
  (s.thread.loop.pendingFunctors_.zipIdx
    (s.posted.length - s.thread.loop.pendingFunctors_.length)).any fun (p, k) => k < covered p.poster

namespace Quitting

def start : Quitting T F H where
  system := .start
  covered := fun _ => 0

/-- What is covered after a step. -/
def cover [DecidableEq T] (q : Quitting T F H) (i : Input T F H) : Option T → Nat :=
  match i.quitter with
  | some t => Function.update q.covered t q.system.posted.length
  | none => q.covered

theorem cover_of_none [DecidableEq T] {q : Quitting T F H} {i : Input T F H} (h : i.quitter = none) :
    q.cover i = q.covered := by
  rw [cover, h]

theorem cover_of_some [DecidableEq T] {q : Quitting T F H} {i : Input T F H} {quitter : Option T}
    (h : i.quitter = some quitter) :
    q.cover i = Function.update q.covered quitter q.system.posted.length := by
  rw [cover, h]

def step [DecidableEq T] [DecidableEq H] (q : Quitting T F H) (i : Input T F H) : Option (Quitting T F H) :=
  (q.system.step i).map fun system => { system, covered := q.cover i }

end Quitting

/-- Every interleaving of a loop with other threads, with the record of `quit()`. -/
def quitting (T F H : Type) [DecidableEq T] [DecidableEq H] : Machine (Quitting T F H) (Input T F H) where
  step := Quitting.step

/-- A call of `quit()` between the swap of an iteration and the loop test behind it, or
between the entry of `loop()` and its first loop test, leaves no covered functor in the
queue, which the loop does not look at again. -/
def QuitsInTime [DecidableEq T] (q : Quitting T F H) (i : Input T F H) : Prop :=
  i.quitter.isSome = true → q.system.thread.at_.nearTest = true → q.system.owes (q.cover i) = false

instance [DecidableEq T] (q : Quitting T F H) (i : Input T F H) : Decidable (QuitsInTime q i) :=
  inferInstanceAs (Decidable (_ → _ → _))

/-- What is pushed now is not covered yet. -/
theorem System.owes_append {s t : System T F H} {covered : Option T → Nat} {news : List (Posted T F)}
    (hposted : t.posted = s.posted ++ news)
    (hpending : t.thread.loop.pendingFunctors_ = s.thread.loop.pendingFunctors_ ++ news)
    (hcovered : ∀ poster, covered poster ≤ s.posted.length) : t.owes covered = s.owes covered := by
  have hbase : (s.posted ++ news).length - (s.thread.loop.pendingFunctors_ ++ news).length =
      s.posted.length - s.thread.loop.pendingFunctors_.length := by
    simp only [List.length_append]
    omega
  unfold System.owes
  rw [hposted, hpending, hbase, List.zipIdx_append, List.any_append, Bool.or_eq_left_iff_imp]
  intro hnews
  obtain ⟨⟨p, k⟩, hmem, hlt⟩ := List.any_eq_true.mp hnews
  have hlower := (List.mem_zipIdx hmem).1
  have hupper := hcovered p.poster
  simp only [decide_eq_true_eq] at hlt
  omega

/-- What keeps covered functors from being left behind: nothing is lost between the
queue and the record, and the loop is only about to stop with no covered functor queued. -/
structure InTime (q : Quitting T F H) : Prop where
  ordered : q.system.queue.Ordered
  covered_le : ∀ poster, q.covered poster ≤ q.system.posted.length
  kept : q.system.thread.loop.quit_ = true → q.system.thread.at_.nearTest = true →
    q.system.owes q.covered = false

theorem InTime.start : InTime (Quitting.start : Quitting T F H) :=
  ⟨rfl, fun _ => Nat.le_refl 0, fun hquit => by cases hquit⟩

theorem InTime.step [DecidableEq T] [DecidableEq H] {q r : Quitting T F H} {i : Input T F H} (h : InTime q)
    (hok : QuitsInTime q i) (hstep : q.step i = some r) : InTime r := by
  obtain ⟨hordered, hcovered, hkept⟩ := h
  obtain ⟨t, hsystem, rfl⟩ := Option.map_eq_some_iff.mp hstep
  have hordered' : t.queue.Ordered :=
    (queue_step hsystem).invariant (fun _ _ _ h _ hstep => h.step hstep) hordered
  cases quit_change hsystem with
  | enter _ _ hquit hposted =>
    refine ⟨hordered', fun poster => by rw [hposted]; exact hcovered poster, fun hquits => ?_⟩
    rw [hquit] at hquits
    cases hquits
  | leave _ _ _ hat hposted =>
    refine ⟨hordered', fun poster => by rw [hposted]; exact hcovered poster, fun _ hnear => ?_⟩
    rw [hat] at hnear
    cases hnear
  | advance a _ _ hquit hposted _ hserved =>
    refine ⟨hordered', fun poster => by rw [hposted]; exact hcovered poster, fun hquits hnear => ?_⟩
    rcases hserved with hempty | ⟨hpending, hbefore⟩
    · unfold System.owes
      rw [hempty]
      rfl
    · rw [hquit] at hquits
      have hsame := hkept hquits (hbefore hnear)
      unfold System.owes at hsame ⊢
      rw [hpending, hposted]
      exact hsame
  | call _ _ _ hat hquit hposted hquiet =>
    obtain ⟨news, hposted, hpending⟩ := hposted
    have hgrown : q.system.posted.length ≤ t.posted.length := by
      rw [hposted, List.length_append]
      omega
    cases hquitter : i.quitter with
    | none =>
      have hcover := Quitting.cover_of_none (q := q) hquitter
      rw [hquitter, Option.isSome_none, Bool.or_false] at hquit
      refine ⟨hordered', fun poster => ?_, fun hquits hnear => ?_⟩
      · rw [hcover]
        exact Nat.le_trans (hcovered poster) hgrown
      · rw [hcover, System.owes_append hposted hpending hcovered]
        exact hkept (hquit.symm.trans hquits) (by rw [← hat]; exact hnear)
    | some quitter =>
      have hnone := hquiet (by rw [hquitter]; rfl)
      have hcover : ∀ poster, q.cover i poster ≤ q.system.posted.length := by
        intro poster
        rw [Quitting.cover_of_some hquitter]
        by_cases hposter : poster = quitter
        · subst hposter
          simp only [Function.update_self, Nat.le_refl]
        · rw [Function.update_of_ne hposter]
          exact hcovered poster
      refine ⟨hordered', fun poster => Nat.le_trans (hcover poster) hgrown, fun _ hnear => ?_⟩
      rw [System.owes_append hposted hpending hcover]
      exact hok (by rw [hquitter]; rfl) (by rw [← hat]; exact hnear)

/-- Quitting drops no accepted work: in every run whose calls of `quit()` are in time,
when `loop()` returns, every functor that a thread has pushed before it called
`quit()` has been executed. -/
theorem quit_drops_nothing [DecidableEq T] [DecidableEq H] {q r : Quitting T F H}
    (hrun : (quitting T F H).Steps QuitsInTime Quitting.start q)
    (hreturn : q.step (.advance .test) = some r) (hreturned : r.system.thread.at_ = .outside)
    {k : Nat} {p : Posted T F} (hposted : r.system.posted[k]? = some p) (hcovered : k < r.covered p.poster) :
    r.system.executed[k]? = some p := by
  have h := hrun.invariant (fun _ _ _ h hok hstep => h.step hok hstep) InTime.start
  obtain ⟨t, hsystem, rfl⟩ := Option.map_eq_some_iff.mp hreturn
  have hexecuted : t.executed = q.system.executed := by
    cases System.stepped hsystem
    exact List.append_nil _
  cases quit_change hsystem with
  | leave _ hbefore hquit _ hsame =>
    have howes := h.kept hquit (by rw [hbefore]; rfl)
    have hordered : q.system.executed ++ q.system.thread.loop.pendingFunctors_ = q.system.posted := by
      have heq : q.system.executed ++ (q.system.thread.at_.remaining ++ q.system.thread.loop.pendingFunctors_) =
        q.system.posted := h.ordered
      rwa [hbefore] at heq
    simp only [hexecuted]
    simp only [hsame, ← hordered] at hposted
    by_cases hbound : k < q.system.executed.length
    · rwa [List.getElem?_append_left hbound] at hposted
    · rw [List.getElem?_append_right (Nat.le_of_not_lt hbound)] at hposted
      have hbase : q.system.posted.length - q.system.thread.loop.pendingFunctors_.length =
          q.system.executed.length := by
        rw [← hordered, List.length_append, Nat.add_sub_cancel]
      have hmem : (p, k) ∈ q.system.thread.loop.pendingFunctors_.zipIdx q.system.executed.length :=
        List.mem_zipIdx_iff_le_and_getElem?_sub.mpr ⟨Nat.le_of_not_lt hbound, hposted⟩
      have hfound : q.system.owes q.covered = true := by
        rw [System.owes, hbase]
        exact List.any_eq_true.mpr ⟨(p, k), hmem, by simpa using (show k < q.covered p.poster from hcovered)⟩
      rw [howes] at hfound
      cases hfound
  | advance _ _ _ _ _ hinside => exact absurd hreturned hinside
  | call _ _ hi => exact absurd rfl (hi .test)

/-- Another thread pushes and quits while the loop is at `poll`. -/
def quitAtPoll : List (Input Nat Nat Nat) :=
  [.advance .enter, .advance .test, .push 1 7, .test 1, .wakeup 1, .quit 1, .wakeup 1,
    .advance (.poll [.wakeupChannel]), .advance .dispatch, .advance .beginFunctors, .advance .swap,
    .advance .take, .advance .returned, .advance .endFunctors]

theorem quit_drops_nothing_at_poll :
    ∃ q r, (quitting Nat Nat Nat).run Quitting.start quitAtPoll = some q ∧
      q.step (.advance .test) = some r ∧ r.system.thread.at_ = .outside ∧
      r.system.executed[0]? = some ⟨some 1, 7⟩ := by
  have hruns : (((quitting Nat Nat Nat).run Quitting.start quitAtPoll).bind
      fun q => (q.step (.advance .test)).map
        fun r => (r.system.thread.at_, r.system.posted, r.covered (some 1))) =
          some (.outside, [⟨some 1, 7⟩], 1) := by
    decide +kernel
  obtain ⟨q, hrun, hlast⟩ := Option.bind_eq_some_iff.mp hruns
  obtain ⟨r, hreturn, heq⟩ := Option.map_eq_some_iff.mp hlast
  obtain ⟨hat, hposted, hcovered⟩ : r.system.thread.at_ = .outside ∧ r.system.posted = [⟨some 1, 7⟩] ∧
      r.covered (some 1) = 1 := by simpa using heq
  refine ⟨q, r, hrun, hreturn, hat, ?_⟩
  exact quit_drops_nothing (Machine.steps_of_run hrun (by decide +kernel)) hreturn hat
    (by rw [hposted]; rfl) (by rw [hcovered]; decide)

/-- Another thread pushes and quits while the loop runs a batch. -/
def quitInBatch : List (Input Nat Nat Nat) :=
  [.advance .enter, .advance .test, .advance (.poll []), .advance .beginFunctors, .advance .swap,
    .push 1 7, .test 1, .wakeup 1, .quit 1, .wakeup 1, .advance .endFunctors, .advance .test]

/-- The loop has then returned without the functor. -/
theorem quit_drops_functor :
    ∃ q, (quitting Nat Nat Nat).run Quitting.start quitInBatch = some q ∧
      q.system.thread.at_ = .outside ∧ q.system.posted = [⟨some 1, 7⟩] ∧ q.covered (some 1) = 1 ∧
      q.system.executed = [] := by
  have hruns : ((quitting Nat Nat Nat).run Quitting.start quitInBatch).map
      (fun q => (q.system.thread.at_, q.system.posted, q.covered (some 1), q.system.executed)) =
        some (.outside, [⟨some 1, 7⟩], 1, []) := by
    decide +kernel
  obtain ⟨q, hrun, heq⟩ := Option.map_eq_some_iff.mp hruns
  exact ⟨q, hrun, by simpa using heq⟩

end muduo.event_loop
