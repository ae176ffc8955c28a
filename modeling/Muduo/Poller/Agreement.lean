import Muduo.Poller.Basic
import Muduo.Library.Transition
import Mathlib.Data.Set.Function

open transition

namespace muduo.epoll

/-- What the poller's map and the kernel's interest list hold for the descriptor
of a channel is what the mark on the channel says. -/
structure Agrees (poller : EPollPoller) (channel : Channel) : Prop where
  interest_eq : poller.interest channel.fd_ =
    if channel.index_ = .kAdded then some { events := channel.events_, ptr := channel.addr } else none
  channels_eq : poller.channels_ channel.fd_ =
    if channel.index_ = .kNew then none else some channel.addr

theorem Agrees.hasChannel_iff {poller : EPollPoller} {channel : Channel} (h : Agrees poller channel) :
    poller.hasChannel channel = true ↔ channel.index_ = .kAdded ∨ channel.index_ = .kDeleted := by
  unfold EPollPoller.hasChannel
  rw [h.channels_eq]
  cases channel.index_ <;> simp

theorem Agrees.kAdded_iff {poller : EPollPoller} {channel : Channel} (h : Agrees poller channel) :
    channel.index_ = .kAdded ↔ (poller.interest channel.fd_).isSome = true := by
  rw [h.interest_eq]
  cases channel.index_ <;> simp

/-- Agreement only concerns the entries of the channel's own descriptor. -/
theorem Agrees.of_entries {before after : EPollPoller} {channel : Channel} (h : Agrees before channel)
    (hinterest : after.interest channel.fd_ = before.interest channel.fd_)
    (hchannels : after.channels_ channel.fd_ = before.channels_ channel.fd_) : Agrees after channel :=
  ⟨hinterest.trans h.interest_eq, hchannels.trans h.channels_eq⟩

/-- The mark that `updateChannel` leaves on a channel with the given mark and mask. -/
def nextIndex (index : Index) (events : Mask) : Index :=
  if index = .kAdded ∧ events = kNoneEvent then .kDeleted else .kAdded

theorem nextIndex_ne_kNew (index : Index) (events : Mask) : nextIndex index events ≠ .kNew := by
  unfold nextIndex
  split <;> simp

/-- The poller after it was told about a change of a channel's mask. -/
def updated (poller : EPollPoller) (channel : Channel) (events : Mask) : EPollPoller :=
  { poller with
    channels_ := Function.update poller.channels_ channel.fd_ (some channel.addr)
    interest := Function.update poller.interest channel.fd_
      (if nextIndex channel.index_ events = .kAdded then some { events := events, ptr := channel.addr }
        else none) }

/-- Updating a channel after any change of its mask issues one `epoll_ctl`, which
succeeds, and sets the entries of the channel's descriptor and no others. -/
theorem updateChannel_eq {poller : EPollPoller} {channel : Channel} (h : Agrees poller channel)
    (events : Mask) :
    poller.updateChannel { channel with events_ := events } =
      (updated poller channel events,
        { channel with events_ := events, index_ := nextIndex channel.index_ events }) := by
  obtain ⟨hinterest, hchannels⟩ := h
  cases hindex : channel.index_ with
  | kNew =>
    simp only [hindex, if_true, reduceCtorEq, if_false] at hinterest hchannels
    simp [EPollPoller.updateChannel, EPollPoller.update, epoll_ctl, hinterest, Channel.set_index,
      hindex, nextIndex, updated]
  | kAdded =>
    simp only [hindex, if_true, reduceCtorEq, if_false] at hinterest hchannels
    have hmap : Function.update poller.channels_ channel.fd_ (some channel.addr) = poller.channels_ :=
      Function.update_eq_self_iff.mpr hchannels.symm
    by_cases hnone : events = kNoneEvent <;>
      simp [EPollPoller.updateChannel, EPollPoller.update, epoll_ctl, hinterest, Channel.set_index,
        Channel.isNoneEvent, hindex, nextIndex, updated, hmap, hnone]
  | kDeleted =>
    simp only [hindex, reduceCtorEq, if_false] at hinterest hchannels
    have hmap : Function.update poller.channels_ channel.fd_ (some channel.addr) = poller.channels_ :=
      Function.update_eq_self_iff.mpr hchannels.symm
    simp [EPollPoller.updateChannel, EPollPoller.update, epoll_ctl, hinterest, Channel.set_index,
      hindex, nextIndex, updated, hmap]

theorem updated_agrees (poller : EPollPoller) (channel : Channel) (events : Mask) :
    Agrees (updated poller channel events)
      { channel with events_ := events, index_ := nextIndex channel.index_ events } := by
  constructor
  · simp [updated]
  · simp [updated, nextIndex_ne_kNew]

/-- The poller after it was told to forget a channel. -/
def removed (poller : EPollPoller) (channel : Channel) : EPollPoller :=
  { poller with
    channels_ := Function.update poller.channels_ channel.fd_ none
    interest := Function.update poller.interest channel.fd_ none }

/-- Removing a channel issues an `epoll_ctl` only if the descriptor is registered,
so the call succeeds. -/
theorem removeChannel_eq {poller : EPollPoller} {channel : Channel} (h : Agrees poller channel) :
    poller.removeChannel channel = (removed poller channel, { channel with index_ := .kNew }) := by
  have hinterest := h.interest_eq
  by_cases hindex : channel.index_ = .kAdded
  · rw [if_pos hindex] at hinterest
    simp [EPollPoller.removeChannel, EPollPoller.update, epoll_ctl, hinterest, Channel.set_index, hindex,
      removed]
  · rw [if_neg hindex] at hinterest
    have hsame : Function.update poller.interest channel.fd_ none = poller.interest :=
      Function.update_eq_self_iff.mpr hinterest.symm
    simp [EPollPoller.removeChannel, Channel.set_index, hindex, removed, hsame]

theorem removed_agrees (poller : EPollPoller) (channel : Channel) :
    Agrees (removed poller channel) { channel with index_ := .kNew } := by
  constructor <;> simp [removed]

/-- What an interest operation leaves of a channel that agrees with its poller: a
new mask and mark, agreement, and no failed `epoll_ctl`. -/
theorem perform_spec {poller : EPollPoller} {channel : Channel} (h : Agrees poller channel)
    (op : ChannelOp) :
    Agrees (channel.perform poller op).1 (channel.perform poller op).2 ∧
    (channel.perform poller op).1.exited = poller.exited ∧
    (channel.perform poller op).1.delErrors = poller.delErrors ∧
    (channel.perform poller op).2.fd_ = channel.fd_ ∧
    (channel.perform poller op).2.addr = channel.addr ∧
    ∀ fd, fd ≠ channel.fd_ →
      (channel.perform poller op).1.interest fd = poller.interest fd ∧
      (channel.perform poller op).1.channels_ fd = poller.channels_ fd := by
  have hupdate (events : Mask) := updateChannel_eq h events
  have hagrees (events : Mask) := updated_agrees poller channel events
  have hframe (events : Mask) (fd : Nat) (hfd : fd ≠ channel.fd_) :
      (updated poller channel events).interest fd = poller.interest fd ∧
      (updated poller channel events).channels_ fd = poller.channels_ fd :=
    ⟨Function.update_of_ne hfd _ _, Function.update_of_ne hfd _ _⟩
  cases op with
  | enableReading | disableReading | enableWriting | disableWriting | disableAll =>
    simp only [Channel.perform, Channel.enableReading, Channel.disableReading, Channel.enableWriting,
      Channel.disableWriting, Channel.disableAll, Channel.update, hupdate]
    exact ⟨hagrees _, rfl, rfl, trivial, trivial, hframe _⟩
  | remove =>
    simp only [Channel.perform, Channel.remove, removeChannel_eq h]
    exact ⟨removed_agrees poller channel, rfl, rfl, trivial, trivial,
      fun fd hfd => ⟨Function.update_of_ne hfd _ _, Function.update_of_ne hfd _ _⟩⟩

/-- An operation on a channel touches the entries of its descriptor only. -/
theorem update_frame (poller : EPollPoller) (op : EpollOp) (channel : Channel) {fd : Nat} (hfd : fd ≠ channel.fd_) :
    (poller.update op channel).interest fd = poller.interest fd ∧
    (poller.update op channel).channels_ = poller.channels_ := by
  unfold EPollPoller.update
  split
  · next interest hctl =>
    refine ⟨?_, rfl⟩
    unfold epoll_ctl at hctl
    split at hctl
    · cases hctl
      exact Function.update_of_ne hfd _ _
    · cases hctl
      exact Function.update_of_ne hfd _ _
    · cases hctl
      exact Function.update_of_ne hfd _ _
    · cases hctl
  · split <;> exact ⟨rfl, rfl⟩

theorem perform_frame (poller : EPollPoller) (channel : Channel) (op : ChannelOp) {fd : Nat} (hfd : fd ≠ channel.fd_) :
    (channel.perform poller op).1.interest fd = poller.interest fd ∧
    (channel.perform poller op).1.channels_ fd = poller.channels_ fd := by
  have hupdate (events : Mask) : (poller.updateChannel { channel with events_ := events }).1.interest fd =
      poller.interest fd ∧
      (poller.updateChannel { channel with events_ := events }).1.channels_ fd = poller.channels_ fd := by
    unfold EPollPoller.updateChannel
    split
    · split
      · obtain ⟨hinterest, hchannels⟩ := update_frame
          { poller with channels_ := Function.update poller.channels_ channel.fd_ (some channel.addr) } .EPOLL_CTL_ADD
          (Channel.set_index { channel with events_ := events } .kAdded) hfd
        exact ⟨hinterest, (congrFun hchannels fd).trans (Function.update_of_ne hfd _ _)⟩
      · obtain ⟨hinterest, hchannels⟩ := update_frame poller .EPOLL_CTL_ADD
          (Channel.set_index { channel with events_ := events } .kAdded) hfd
        exact ⟨hinterest, congrFun hchannels fd⟩
    · split
      · obtain ⟨hinterest, hchannels⟩ := update_frame poller .EPOLL_CTL_DEL { channel with events_ := events } hfd
        exact ⟨hinterest, congrFun hchannels fd⟩
      · obtain ⟨hinterest, hchannels⟩ := update_frame poller .EPOLL_CTL_MOD { channel with events_ := events } hfd
        exact ⟨hinterest, congrFun hchannels fd⟩
  cases op with
  | enableReading | disableReading | enableWriting | disableWriting | disableAll => exact hupdate _
  | remove =>
    have herased : Function.update poller.channels_ channel.fd_ none fd = poller.channels_ fd :=
      Function.update_of_ne hfd _ _
    change (poller.removeChannel channel).1.interest fd = _ ∧ (poller.removeChannel channel).1.channels_ fd = _
    unfold EPollPoller.removeChannel
    split
    · obtain ⟨hinterest, hchannels⟩ := update_frame
        { poller with channels_ := Function.update poller.channels_ channel.fd_ none } .EPOLL_CTL_DEL channel hfd
      exact ⟨hinterest, (congrFun hchannels fd).trans herased⟩
    · exact ⟨rfl, herased⟩

/-- The mask that an interest operation leaves. -/
def ChannelOp.mask : ChannelOp → Mask → Mask
  | .enableReading, events => events ||| kReadEvent
  | .disableReading, events => events &&& ~~~kReadEvent
  | .enableWriting, events => events ||| kWriteEvent
  | .disableWriting, events => events &&& ~~~kWriteEvent
  | .disableAll, _ => kNoneEvent
  | .remove, events => events

/-- The mark that an interest operation leaves. -/
def ChannelOp.mark (op : ChannelOp) (channel : Channel) : Index :=
  if op = .remove then .kNew else nextIndex channel.index_ (op.mask channel.events_)

theorem updateChannel_snd (poller : EPollPoller) (channel : Channel) (events : Mask) :
    (poller.updateChannel { channel with events_ := events }).2 =
      { channel with events_ := events, index_ := nextIndex channel.index_ events } := by
  unfold EPollPoller.updateChannel nextIndex
  cases hindex : channel.index_ <;> by_cases hnone : events = kNoneEvent <;>
    simp [Channel.set_index, Channel.isNoneEvent, hnone]

/-- What an interest operation does to the channel does not depend on the poller. -/
theorem perform_snd (poller : EPollPoller) (channel : Channel) (op : ChannelOp) :
    (channel.perform poller op).2 =
      { channel with events_ := op.mask channel.events_, index_ := op.mark channel } := by
  cases op with
  | enableReading | disableReading | enableWriting | disableWriting | disableAll =>
    exact updateChannel_snd poller channel _
  | remove => rfl

theorem mask_enableReading_meets (events : Mask) :
    (ChannelOp.enableReading.mask events).meets kReadEvent = true := by
  simp only [ChannelOp.mask, Mask.meets, bne_iff_ne, ne_eq]
  intro hzero
  have hbit := congrArg (fun mask : Mask => mask.getLsbD 0) hzero
  simp [kReadEvent, EPOLLIN, EPOLLPRI] at hbit

theorem mask_enableWriting_meets (events : Mask) :
    (ChannelOp.enableWriting.mask events).meets kWriteEvent = true := by
  simp only [ChannelOp.mask, Mask.meets, bne_iff_ne, ne_eq]
  intro hzero
  have hbit := congrArg (fun mask : Mask => mask.getLsbD 2) hzero
  simp [kWriteEvent, EPOLLOUT] at hbit

theorem mask_disableWriting_meets (events : Mask) :
    (ChannelOp.disableWriting.mask events).meets kWriteEvent = false := by
  simp only [ChannelOp.mask, Mask.meets, bne_eq_false_iff_eq]
  have hclear : ~~~kWriteEvent &&& kWriteEvent = 0 := by decide
  rw [BitVec.and_assoc, hclear]
  exact BitVec.and_zero

/-- The interest in writing does not touch the interest in reading. -/
theorem mask_writing_meets_read {op : ChannelOp} (hop : op = .enableWriting ∨ op = .disableWriting)
    (events : Mask) : (op.mask events).meets kReadEvent = events.meets kReadEvent := by
  have hdisjoint : kWriteEvent &&& kReadEvent = 0#32 := by decide
  have hinside : ~~~kWriteEvent &&& kReadEvent = kReadEvent := by decide
  rcases hop with rfl | rfl
  · simp only [ChannelOp.mask, Mask.meets]
    rw [BitVec.and_or_distrib_right, hdisjoint, BitVec.or_zero]
  · simp only [ChannelOp.mask, Mask.meets]
    rw [BitVec.and_assoc, hinside]

/-- A mask that shares an event with another one is not empty. -/
theorem ne_kNoneEvent_of_meets {mask events : Mask} (h : mask.meets events = true) : mask ≠ kNoneEvent := by
  intro hnone
  subst hnone
  simp [Mask.meets, kNoneEvent] at h

/-- One poller and the channels that use it, by address. -/
structure Watch where
  poller : EPollPoller
  channel : Nat → Channel

/-- A fresh poller and fresh channels, each with its own descriptor. -/
def Watch.start (fd : Nat → Nat) : Watch where
  poller := .construct
  channel := fun addr => .construct addr (fd addr)

/-- Interest operations on any of the channels in any order, until the process exits. -/
def watching : Machine Watch (Nat × ChannelOp) where
  step s i :=
    if s.poller.exited then none
    else
      let (poller, channel) := (s.channel i.1).perform s.poller i.2
      some { poller, channel := Function.update s.channel i.1 channel }

/-- What holds throughout: nothing has failed, and the poller agrees with every
channel of the set, each of which has kept its address and descriptor. -/
structure Watch.Sound (fd : Nat → Nat) (live : Set Nat) (s : Watch) : Prop where
  exited_eq : s.poller.exited = false
  delErrors_eq : s.poller.delErrors = 0
  fd_eq : ∀ addr, (s.channel addr).fd_ = fd addr
  addr_eq : ∀ addr, (s.channel addr).addr = addr
  agrees : ∀ addr ∈ live, Agrees s.poller (s.channel addr)

theorem Watch.start_sound (fd : Nat → Nat) (live : Set Nat) : (Watch.start fd).Sound fd live :=
  ⟨rfl, rfl, fun _ => rfl, fun _ => rfl, fun _ _ => ⟨rfl, rfl⟩⟩

theorem Watch.step_sound {fd : Nat → Nat} {live : Set Nat} (hdistinct : Set.InjOn fd live)
    {s t : Watch} {i : Nat × ChannelOp} (h : s.Sound fd live) (hlive : i.1 ∈ live)
    (hstep : watching.step s i = some t) : t.Sound fd live := by
  obtain ⟨hexited, herrors, hfd, haddr, hagrees⟩ := h
  obtain ⟨acting, op⟩ := i
  obtain ⟨hagrees', hexited', herrors', hfd', haddr', hframe⟩ := perform_spec (hagrees acting hlive) op
  simp only [watching, hexited, Bool.false_eq_true, if_false, Option.some.injEq] at hstep
  subst t
  refine ⟨hexited'.trans hexited, herrors'.trans herrors, ?_, ?_, ?_⟩
  · intro addr
    by_cases hacting : addr = acting
    · subst addr
      simpa using hfd'.trans (hfd acting)
    · simpa [hacting] using hfd addr
  · intro addr
    by_cases hacting : addr = acting
    · subst addr
      simpa using haddr'.trans (haddr acting)
    · simpa [hacting] using haddr addr
  · intro addr hmem
    by_cases hacting : addr = acting
    · subst addr
      simpa using hagrees'
    · have hother : (s.channel addr).fd_ ≠ (s.channel acting).fd_ := by
        rw [hfd, hfd]
        exact fun heq => hacting (hdistinct hmem hlive heq)
      obtain ⟨hinterest, hchannels⟩ := hframe _ hother
      simpa [hacting] using (hagrees addr hmem).of_entries hinterest hchannels

/-- Channel, poller and kernel agree after any interest operations in any order on
channels with distinct descriptors, and no `epoll_ctl` has failed. -/
theorem channel_poller_kernel_agree (fd : Nat → Nat) (live : Set Nat) (hdistinct : Set.InjOn fd live)
    {s : Watch} (hrun : watching.Steps (fun _ i => i.1 ∈ live) (Watch.start fd) s) :
    (∀ addr ∈ live,
      ((s.channel addr).index_ = .kAdded ↔ (s.poller.interest (fd addr)).isSome = true) ∧
      (∀ event, s.poller.interest (fd addr) = some event →
        event.ptr = addr ∧ event.events = (s.channel addr).events_) ∧
      (s.poller.hasChannel (s.channel addr) = true ↔
        (s.channel addr).index_ = .kAdded ∨ (s.channel addr).index_ = .kDeleted)) ∧
    s.poller.exited = false ∧ s.poller.delErrors = 0 := by
  obtain ⟨hexited, herrors, hfd, haddr, hagrees⟩ := hrun.invariant
    (fun _ _ _ hsound hlive hstep => Watch.step_sound hdistinct hsound hlive hstep)
    (Watch.start_sound fd live)
  refine ⟨fun addr hmem => ⟨?_, ?_, (hagrees addr hmem).hasChannel_iff⟩, hexited, herrors⟩
  · simpa only [hfd] using (hagrees addr hmem).kAdded_iff
  · intro event hevent
    have hinterest := (hagrees addr hmem).interest_eq
    rw [hfd, hevent] at hinterest
    split at hinterest
    · cases hinterest
      exact ⟨haddr addr, rfl⟩
    · cases hinterest

/-- Two channels, with redundant calls, a removal of a channel that was never
added and one that comes back after its removal. -/
def twoChannels : List (Nat × ChannelOp) :=
  [(3, .remove), (3, .enableReading), (5, .disableAll), (3, .enableWriting), (3, .enableWriting),
    (5, .disableAll), (3, .disableAll), (3, .remove), (3, .enableReading)]

theorem channel_poller_kernel_agree_two :
    ∃ s, watching.run (Watch.start id) twoChannels = some s ∧
      (∀ addr ∈ ({3, 5} : Set Nat),
        ((s.channel addr).index_ = .kAdded ↔ (s.poller.interest (id addr)).isSome = true) ∧
        (∀ event, s.poller.interest (id addr) = some event →
          event.ptr = addr ∧ event.events = (s.channel addr).events_) ∧
        (s.poller.hasChannel (s.channel addr) = true ↔
          (s.channel addr).index_ = .kAdded ∨ (s.channel addr).index_ = .kDeleted)) ∧
      s.poller.exited = false ∧ s.poller.delErrors = 0 := by
  have hlive : ∀ i ∈ twoChannels, i.1 ∈ ({3, 5} : Set Nat) := by simp [twoChannels]
  obtain ⟨s, hrun⟩ : ∃ s, watching.run (Watch.start id) twoChannels = some s := ⟨_, rfl⟩
  exact ⟨s, hrun, channel_poller_kernel_agree id {3, 5} (Set.injOn_id _)
    (Machine.steps_of_run hrun (Machine.along_of_forall (fun i hi _ => hlive i hi) _))⟩

end muduo.epoll
