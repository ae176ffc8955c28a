import Muduo.Poller.Agreement

open transition

namespace muduo.epoll

/-- Every channel of the set without interest is absent from the interest list of
the kernel, which would report `EPOLLHUP` and `EPOLLERR` of it all the same. -/
def Watch.Unwatched (fd : Nat → Nat) (live : Set Nat) (s : Watch) : Prop :=
  ∀ addr ∈ live, (s.channel addr).isNoneEvent = true → s.poller.interest (fd addr) = none

/-- An operation that leaves a channel in the poller without interest finds it
marked as added, which is the only mark for which `updateChannel` looks at the mask. -/
def EmptiesAdded (s : Watch) (i : Nat × ChannelOp) : Prop :=
  i.2 ≠ .remove → i.2.mask (s.channel i.1).events_ = kNoneEvent → (s.channel i.1).index_ = .kAdded

instance (s : Watch) (i : Nat × ChannelOp) : Decidable (EmptiesAdded s i) :=
  inferInstanceAs (Decidable (_ → _ → _))

/-- A channel that agrees with its poller is watched without interest exactly if it
is marked as added. -/
theorem Agrees.unwatched_iff {poller : EPollPoller} {channel : Channel} (h : Agrees poller channel) :
    (channel.isNoneEvent = true → poller.interest channel.fd_ = none) ↔
      (channel.isNoneEvent = true → channel.index_ ≠ .kAdded) := by
  rw [h.interest_eq]
  constructor
  · intro hunwatched hnone hadded
    have habsent := hunwatched hnone
    rw [if_pos hadded] at habsent
    cases habsent
  · intro hmark hnone
    rw [if_neg (hmark hnone)]

/-- The mark of a channel that an operation leaves without interest. -/
theorem ChannelOp.mark_kAdded_iff {op : ChannelOp} {channel : Channel}
    (hnone : op.mask channel.events_ = kNoneEvent) :
    op.mark channel = .kAdded ↔ op ≠ .remove ∧ channel.index_ ≠ .kAdded := by
  unfold ChannelOp.mark nextIndex
  by_cases hremove : op = .remove
  · simp [hremove]
  · by_cases hadded : channel.index_ = .kAdded
    · simp [hremove, hadded, hnone]
    · simp [hremove, hadded]

/-- One operation keeps the channels without interest unwatched exactly if it
empties the mask of an added channel only. -/
theorem Watch.Sound.unwatched_step_iff {fd : Nat → Nat} {live : Set Nat} (hdistinct : Set.InjOn fd live)
    {s t : Watch} {i : Nat × ChannelOp} (h : s.Sound fd live) (hquiet : s.Unwatched fd live)
    (hlive : i.1 ∈ live) (hstep : watching.step s i = some t) :
    t.Unwatched fd live ↔ EmptiesAdded s i := by
  have hsound := Watch.step_sound hdistinct h hlive hstep
  obtain ⟨acting, op⟩ := i
  have hmarked (u : Watch) (hu : u.Sound fd live) (addr : Nat) (hmem : addr ∈ live) :
      ((u.channel addr).isNoneEvent = true → u.poller.interest (fd addr) = none) ↔
        ((u.channel addr).isNoneEvent = true → (u.channel addr).index_ ≠ .kAdded) := by
    rw [← hu.fd_eq addr]
    exact (hu.agrees addr hmem).unwatched_iff
  simp only [watching, h.exited_eq, Bool.false_eq_true, if_false, Option.some.injEq] at hstep
  have hacting : t.channel acting = { s.channel acting with
      events_ := op.mask (s.channel acting).events_, index_ := op.mark (s.channel acting) } := by
    rw [← hstep, ← perform_snd s.poller (s.channel acting) op]
    exact Function.update_self _ _ _
  have hothers (addr : Nat) (hne : addr ≠ acting) : t.channel addr = s.channel addr := by
    rw [← hstep]
    exact Function.update_of_ne hne _ _
  have hkept : t.Unwatched fd live ↔
      ((t.channel acting).isNoneEvent = true → (t.channel acting).index_ ≠ .kAdded) := by
    constructor
    · intro hall
      exact (hmarked t hsound acting hlive).mp (hall acting hlive)
    · intro hmark addr hmem
      by_cases hsame : addr = acting
      · subst addr
        exact (hmarked t hsound acting hlive).mpr hmark
      · rw [hmarked t hsound addr hmem, hothers addr hsame, ← hmarked s h addr hmem]
        exact hquiet addr hmem
  rw [hkept, hacting]
  simp only [Channel.isNoneEvent, beq_iff_eq, EmptiesAdded]
  constructor
  · intro hmark hop hnone
    by_contra hnotAdded
    exact hmark hnone ((ChannelOp.mark_kAdded_iff hnone).mpr ⟨hop, hnotAdded⟩)
  · intro hadded hnone hmark
    obtain ⟨hop, hnotAdded⟩ := (ChannelOp.mark_kAdded_iff hnone).mp hmark
    exact hnotAdded (hadded hop hnone)

theorem Watch.start_unwatched (fd : Nat → Nat) (live : Set Nat) : (Watch.start fd).Unwatched fd live :=
  fun _ _ _ => rfl

/-- An operation on a channel of the set does not fail and keeps what holds throughout. -/
theorem Watch.Sound.enabled {fd : Nat → Nat} {live : Set Nat} (hdistinct : Set.InjOn fd live)
    {s : Watch} (h : s.Sound fd live) (i : Nat × ChannelOp) (hlive : i.1 ∈ live) :
    ∃ t, watching.step s i = some t ∧ t.Sound fd live := by
  obtain ⟨t, hstep⟩ : ∃ t, watching.step s i = some t := by simp [watching, h.exited_eq]
  exact ⟨t, hstep, Watch.step_sound hdistinct h hlive hstep⟩

/-- Along any sequence of operations on channels with distinct descriptors, after
each operation no channel without interest is watched, exactly if each operation
that empties a mask finds its channel marked as added. -/
theorem no_interest_unwatched (fd : Nat → Nat) (live : Set Nat) (hdistinct : Set.InjOn fd live)
    (ops : List (Nat × ChannelOp)) (hlive : ∀ i ∈ ops, i.1 ∈ live) :
    (∀ done s, done <+: ops → watching.run (Watch.start fd) done = some s →
      ∀ addr ∈ live, (s.channel addr).isNoneEvent = true → s.poller.interest (fd addr) = none) ↔
    watching.Along EmptiesAdded (Watch.start fd) ops := by
  have hstart := Watch.start_sound fd live
  obtain ⟨last, hrun, _⟩ := Machine.exists_run (M := watching) (fun i => i.1 ∈ live)
    (fun _ i h hi => h.enabled hdistinct i hi) hlive hstart
  exact Machine.along_iff_forall_prefix (fun i => i.1 ∈ live)
    (fun s => s.Sound fd live ∧ s.Unwatched fd live) (Watch.Unwatched fd live) (fun _ h => h.2)
    (fun _ _ _ h hi hok hstep => ⟨Watch.step_sound hdistinct h.1 hi hstep,
      (h.1.unwatched_step_iff hdistinct h.2 hi hstep).mpr hok⟩)
    (fun _ _ _ h hi hnot hstep hquiet => hnot ((h.1.unwatched_step_iff hdistinct h.2 hi hstep).mp hquiet))
    hlive ⟨hstart, Watch.start_unwatched fd live⟩ hrun

/-- A channel that is enabled, emptied once and removed, next to one that stays. -/
def emptiedOnce : List (Nat × ChannelOp) :=
  [(3, .enableReading), (5, .enableReading), (3, .enableWriting), (3, .disableAll), (3, .remove)]

theorem no_interest_unwatched_once : ∃ s, watching.run (Watch.start id) emptiedOnce = some s ∧
    ∀ addr ∈ ({3, 5} : Set Nat), (s.channel addr).isNoneEvent = true → s.poller.interest (id addr) = none := by
  have hruns : (watching.run (Watch.start id) emptiedOnce).isSome = true := by decide +kernel
  obtain ⟨s, hrun⟩ := Option.isSome_iff_exists.mp hruns
  have hunwatched := (no_interest_unwatched id {3, 5} (Set.injOn_id _) emptiedOnce (by simp [emptiedOnce])).mpr
    (by decide +kernel)
  exact ⟨s, hrun, hunwatched emptiedOnce s (List.prefix_refl _) hrun⟩

/-- A second `disableAll` on a channel, as when `handleClose` runs twice: the first
one deletes it from the interest list, the second one adds it with an empty mask. -/
def emptiedTwice : List (Nat × ChannelOp) := [(3, .enableReading), (3, .disableAll), (3, .disableAll)]

theorem no_interest_watched : ∃ s, watching.run (Watch.start id) emptiedTwice = some s ∧
    (s.channel 3).isNoneEvent = true ∧ s.poller.interest 3 = some { events := kNoneEvent, ptr := 3 } := by
  obtain ⟨s, hrun, hlast⟩ := Option.map_eq_some_iff.mp
    (show (watching.run (Watch.start id) emptiedTwice).map
      (fun s => ((s.channel 3).isNoneEvent, s.poller.interest 3)) =
        some (true, some { events := kNoneEvent, ptr := 3 }) by decide +kernel)
  exact ⟨s, hrun, (Prod.ext_iff.mp hlast).1, (Prod.ext_iff.mp hlast).2⟩

end muduo.epoll
