import Muduo.Poller.Interest
import Muduo.Library.Record

open transition record

namespace muduo.epoll

/-- What the record of a loop holds: the interest operations that have returned, and
the callbacks that have started. -/
inductive Happening where
  | performed (addr : Nat) (op : ChannelOp)
  | started (addr : Nat) (callback : EventCallback)
  deriving DecidableEq

/-- How an interest operation switches a channel. -/
def ChannelOp.switches : ChannelOp → Option Bool
  | .enableReading => some true
  | .enableWriting => some true
  | .disableAll => some false
  | .remove => some false
  | .disableReading => none
  | .disableWriting => none

/-- Whether a channel is switched off after what has happened: the last operation
that switched it was `disableAll` or `remove`. -/
def switchedOff (addr : Nat) (log : List Happening) : Bool :=
  log.foldl (fun off happening => match happening with
    | .performed other op => if other = addr then op.switches.elim off (!·) else off
    | .started _ _ => off) false

theorem switchedOff_performed (addr other : Nat) (op : ChannelOp) (log : List Happening) :
    switchedOff addr (log ++ [.performed other op]) =
      if other = addr then op.switches.elim (switchedOff addr log) (!·) else switchedOff addr log := by
  rw [switchedOff, List.foldl_append]
  rfl

theorem switchedOff_started (addr other : Nat) (callback : EventCallback) (log : List Happening) :
    switchedOff addr (log ++ [.started other callback]) = switchedOff addr log := by
  rw [switchedOff, List.foldl_append]
  rfl

/-- Where the loop is: outside of a pass over its active channels, where functors and
other code may run, between two callbacks of a pass, or in one. -/
inductive Stage where
  | idle
  | passing
  | calling
  deriving DecidableEq

/-- A loop with its channels. `active` is what the pass has still to dispatch of
`activeChannels_`, `due` the callbacks that the current dispatch has still to make. -/
structure Pass where
  watch : Watch
  stage : Stage
  active : List Nat
  due : List (Nat × EventCallback)
  log : List Happening

/-- A step of the loop. User code performs operations; `poll` brings the ready
channels with their events; a dispatch of a tied channel finds its owner alive or not. -/
inductive PassInput where
  | perform (addr : Nat) (op : ChannelOp)
  | tie (addr : Nat)
  | poll (ready : List (Nat × Mask))
  | handleEvent (alive : Bool)
  | callback
  | returned
  | finish
  deriving DecidableEq

/-- The kernel has the channel at the given address in its interest list. -/
def Watch.registered (s : Watch) (addr : Nat) : Bool :=
  (s.poller.interest (s.channel addr).fd_).any (·.ptr == addr)

/-- The part of `fillActiveChannels` that stores the events of the ready channels. -/
def Watch.fill (s : Watch) (ready : List (Nat × Mask)) : Watch :=
  ready.foldl (fun s (addr, revents) =>
    { s with channel := Function.update s.channel addr ((s.channel addr).set_revents revents) }) s

/-- The callbacks that a dispatch of a channel makes, of those that are set. -/
def Channel.handlers (self : Channel) (isSet : Nat → EventCallback → Bool) : List EventCallback :=
  self.handleEventWithGuard.filter (isSet self.addr)

namespace Pass

def start (fd : Nat → Nat) : Pass where
  watch := .start fd
  stage := .idle
  active := []
  due := []
  log := []

def advance (isSet : Nat → EventCallback → Bool) (s : Pass) : PassInput → Option Pass
  | .perform addr op =>
    if s.stage = .passing then none
    else (watching.step s.watch (addr, op)).map fun watch =>
      { s with watch, log := s.log ++ [.performed addr op] }
  | .tie addr =>
    if s.stage = .passing then none
    else some { s with watch := { s.watch with
      channel := Function.update s.watch.channel addr (s.watch.channel addr).tie } }
  | .poll ready =>
    if s.stage = .idle ∧ ∀ event ∈ ready, s.watch.registered event.1 = true then
      some { s with watch := s.watch.fill ready, stage := .passing, active := ready.map Prod.fst }
    else none
  | .handleEvent alive =>
    match s.stage, s.due, s.active with
    | .passing, [], addr :: rest =>
      let channel := s.watch.channel addr
      let due := if channel.tied_ && !alive then [] else channel.handlers isSet
      some { s with active := rest, due := due.map fun callback => (addr, callback) }
    | _, _, _ => none
  | .callback =>
    match s.stage, s.due with
    | .passing, (addr, callback) :: rest =>
      some { s with stage := .calling, due := rest, log := s.log ++ [.started addr callback] }
    | _, _ => none
  | .returned => if s.stage = .calling then some { s with stage := .passing } else none
  | .finish => if s.stage = .passing ∧ s.active = [] ∧ s.due = [] then some { s with stage := .idle } else none

/-- A step, until the process exits. -/
def step (isSet : Nat → EventCallback → Bool) (s : Pass) (i : PassInput) : Option Pass :=
  if s.watch.poller.exited then none else s.advance isSet i

/-- Some callback of the channel is still to be made in the current pass. -/
def isDue (isSet : Nat → EventCallback → Bool) (s : Pass) (addr : Nat) : Bool :=
  s.due.any (fun event => event.1 == addr) ||
    s.active.contains addr && !((s.watch.channel addr).handlers isSet).isEmpty

/-- Whether an interest operation keeps to what switching off relies on: nothing of
the channel is due when it is switched off, `disableAll` finds it marked as added, and
a channel that is off is not passed to `updateChannel` again but to be enabled. -/
def keeps (isSet : Nat → EventCallback → Bool) (s : Pass) : PassInput → Bool
  | .perform addr .remove => !s.isDue isSet addr
  | .perform addr .disableAll => (s.watch.channel addr).index_ == .kAdded && !s.isDue isSet addr
  | .perform addr .disableReading => !switchedOff addr s.log
  | .perform addr .disableWriting => !switchedOff addr s.log
  | _ => true

end Pass

/-- A loop that polls and dispatches its channels, with `isSet` telling which
callbacks each channel has. -/
def passes (isSet : Nat → EventCallback → Bool) : Machine Pass PassInput where
  step := Pass.step isSet

def SwitchesClean (isSet : Nat → EventCallback → Bool) (s : Pass) (i : PassInput) : Prop :=
  s.keeps isSet i = true

instance (isSet : Nat → EventCallback → Bool) (s : Pass) (i : PassInput) :
    Decidable (SwitchesClean isSet s i) :=
  inferInstanceAs (Decidable (s.keeps isSet i = true))

/-- The interest list names exactly the channels that are marked as added, whatever
descriptors they share. -/
structure Watch.Listed (s : Watch) : Prop where
  addr_eq : ∀ addr, (s.channel addr).addr = addr
  entry : ∀ addr, (s.channel addr).index_ = .kAdded →
    s.poller.interest (s.channel addr).fd_ = some { events := (s.channel addr).events_, ptr := addr }
  marked : ∀ fd event, s.poller.interest fd = some event →
    (s.channel event.ptr).index_ = .kAdded ∧ (s.channel event.ptr).fd_ = fd

theorem Watch.Listed.start (fd : Nat → Nat) : (Watch.start fd).Listed := by
  refine ⟨fun _ => rfl, ?_, ?_⟩
  · intro addr hadded
    cases hadded
  · intro fd event hevent
    cases hevent

theorem Watch.Listed.kAdded_of_registered {s : Watch} (h : s.Listed) {addr : Nat}
    (hregistered : s.registered addr = true) : (s.channel addr).index_ = .kAdded := by
  unfold Watch.registered at hregistered
  cases hentry : s.poller.interest (s.channel addr).fd_ with
  | none => simp [hentry] at hregistered
  | some event =>
    obtain rfl : event.ptr = addr := by simpa [hentry] using hregistered
    exact (h.marked _ event hentry).1

/-- What an update of a changed channel does to the interest list, if the process
goes on: the descriptor of a channel that is not marked as added was free. -/
theorem interest_updateChannel {poller : EPollPoller} {channel : Channel} {events : Mask}
    (hentry : channel.index_ = .kAdded → (poller.interest channel.fd_).isSome = true)
    (hgoes : (poller.updateChannel { channel with events_ := events }).1.exited = false) :
    (channel.index_ ≠ .kAdded → poller.interest channel.fd_ = none) ∧
    (poller.updateChannel { channel with events_ := events }).1.interest =
      Function.update poller.interest channel.fd_
        (if nextIndex channel.index_ events = .kAdded then some { events := events, ptr := channel.addr }
          else none) := by
  by_cases hadded : channel.index_ = .kAdded
  · refine ⟨fun hnot => absurd hadded hnot, ?_⟩
    obtain ⟨event, hevent⟩ := Option.isSome_iff_exists.mp (hentry hadded)
    by_cases hnone : events = kNoneEvent <;>
      simp [EPollPoller.updateChannel, EPollPoller.update, epoll_ctl, hevent, Channel.isNoneEvent, hadded,
        nextIndex, hnone]
  · have hkind : channel.index_ = .kNew ∨ channel.index_ = .kDeleted := by
      cases hindex : channel.index_ <;> simp_all
    cases hevent : poller.interest channel.fd_ with
    | none =>
      refine ⟨fun _ => rfl, ?_⟩
      rcases hkind with hkind | hkind <;>
        simp [EPollPoller.updateChannel, EPollPoller.update, epoll_ctl, hevent, Channel.set_index, hkind, nextIndex]
    | some event =>
      rcases hkind with hkind | hkind <;>
        simp [EPollPoller.updateChannel, EPollPoller.update, epoll_ctl, hevent, Channel.set_index, hkind] at hgoes

/-- Replacing one channel keeps the interest list in order if its entry is replaced
along with it. -/
theorem Watch.Listed.replace {s : Watch} (h : s.Listed) {addr : Nat} {poller : EPollPoller} {channel : Channel}
    (haddr : channel.addr = addr) (hfd : channel.fd_ = (s.channel addr).fd_)
    (hfree : (s.channel addr).index_ ≠ .kAdded → s.poller.interest (s.channel addr).fd_ = none)
    (hinterest : poller.interest = Function.update s.poller.interest (s.channel addr).fd_
      (if channel.index_ = .kAdded then some { events := channel.events_, ptr := addr } else none)) :
    Watch.Listed { poller, channel := Function.update s.channel addr channel } := by
  have hentries (fd : Nat) (event : EpollEvent) (hevent : s.poller.interest fd = some event) :
      event.ptr = addr → fd = (s.channel addr).fd_ := by
    rintro rfl
    exact (h.marked fd event hevent).2.symm
  have hunique (event : EpollEvent) (hevent : s.poller.interest (s.channel addr).fd_ = some event) :
      event.ptr = addr := by
    by_contra hother
    have hadded : (s.channel addr).index_ = .kAdded := by
      by_contra hnot
      rw [hfree hnot] at hevent
      cases hevent
    rw [h.entry addr hadded] at hevent
    cases hevent
    exact hother rfl
  refine ⟨?_, ?_, ?_⟩
  · intro other
    by_cases hother : other = addr
    · subst other
      simpa using haddr
    · simpa [hother] using h.addr_eq other
  · intro other hadded
    by_cases hother : other = addr
    · subst other
      simp only [Function.update_self] at hadded ⊢
      rw [hinterest, hfd, Function.update_self, if_pos hadded]
    · simp only [Function.update_of_ne hother] at hadded ⊢
      have hentry := h.entry other hadded
      have hne : (s.channel other).fd_ ≠ (s.channel addr).fd_ := by
        intro hsame
        rw [hsame] at hentry
        exact hother (hunique _ hentry)
      rw [hinterest, Function.update_of_ne hne, hentry]
  · intro fd event hevent
    simp only [hinterest] at hevent
    by_cases hsame : fd = (s.channel addr).fd_
    · rw [hsame, Function.update_self] at hevent
      split at hevent
      · next hadded =>
        cases hevent
        simp only [Function.update_self]
        exact ⟨hadded, hfd.trans hsame.symm⟩
      · cases hevent
    · rw [Function.update_of_ne hsame] at hevent
      have hother : event.ptr ≠ addr := fun hptr => hsame (hentries fd event hevent hptr)
      simp only [Function.update_of_ne hother]
      exact h.marked fd event hevent

/-- A channel that is not marked as added can be replaced by another such one. -/
theorem Watch.Listed.replace_unlisted {s : Watch} (h : s.Listed) {addr : Nat} {poller : EPollPoller}
    {channel : Channel} (haddr : channel.addr = addr) (hbefore : (s.channel addr).index_ ≠ .kAdded)
    (hafter : channel.index_ ≠ .kAdded) (hinterest : poller.interest = s.poller.interest) :
    Watch.Listed { poller, channel := Function.update s.channel addr channel } := by
  refine ⟨?_, ?_, ?_⟩
  · intro other
    by_cases hother : other = addr
    · subst other
      simpa using haddr
    · simpa [hother] using h.addr_eq other
  · intro other hadded
    by_cases hother : other = addr
    · subst other
      exact absurd (by simpa using hadded) hafter
    · simp only [Function.update_of_ne hother] at hadded ⊢
      rw [hinterest]
      exact h.entry other hadded
  · intro fd event hevent
    rw [hinterest] at hevent
    obtain ⟨hadded, hfd⟩ := h.marked fd event hevent
    have hother : event.ptr ≠ addr := by
      rintro rfl
      exact hbefore hadded
    simp only [Function.update_of_ne hother]
    exact ⟨hadded, hfd⟩

/-- An operation changes one channel, and keeps the interest list in order if the
process goes on. -/
theorem Watch.Listed.perform {s t : Watch} (h : s.Listed) {addr : Nat} {op : ChannelOp}
    (hstep : watching.step s (addr, op) = some t) (hgoes : t.poller.exited = false) :
    t.Listed ∧ t.channel = Function.update s.channel addr { s.channel addr with
      events_ := op.mask (s.channel addr).events_, index_ := op.mark (s.channel addr) } := by
  simp only [watching] at hstep
  split at hstep
  · cases hstep
  · cases hstep
    refine ⟨?_, by rw [perform_snd]⟩
    have hentry (hadded : (s.channel addr).index_ = .kAdded) := h.entry addr hadded
    rw [perform_snd]
    by_cases hremove : op = .remove
    · subst hremove
      by_cases hadded : (s.channel addr).index_ = .kAdded
      · refine h.replace (h.addr_eq addr) rfl (fun hnot => absurd hadded hnot) ?_
        simp [Channel.perform, Channel.remove, EPollPoller.removeChannel, EPollPoller.update, epoll_ctl, hadded,
          hentry hadded, ChannelOp.mark]
      · refine h.replace_unlisted (h.addr_eq addr) hadded (by simp [ChannelOp.mark]) ?_
        simp [Channel.perform, Channel.remove, EPollPoller.removeChannel, hadded]
    · have hupdate : (s.channel addr).perform s.poller op = s.poller.updateChannel { s.channel addr with
          events_ := op.mask (s.channel addr).events_ } := by
        cases op <;> first | rfl | exact absurd rfl hremove
      rw [hupdate] at hgoes ⊢
      obtain ⟨hfree, hinterest⟩ := interest_updateChannel (fun hadded => by rw [hentry hadded]; rfl) hgoes
      refine h.replace (h.addr_eq addr) rfl hfree ?_
      rw [hinterest, ChannelOp.mark, if_neg hremove, h.addr_eq addr]

theorem Watch.fill_channel (s : Watch) (ready : List (Nat × Mask)) (addr : Nat) :
    ∃ revents, (s.fill ready).channel addr = (s.channel addr).set_revents revents := by
  induction ready generalizing s with
  | nil => exact ⟨(s.channel addr).revents_, rfl⟩
  | cons event ready ih =>
    obtain ⟨revents, heq⟩ := ih { s with
      channel := Function.update s.channel event.1 ((s.channel event.1).set_revents event.2) }
    refine ⟨revents, heq.trans ?_⟩
    by_cases hsame : addr = event.1
    · subst hsame
      simp [Channel.set_revents]
    · simp [hsame]

theorem Watch.fill_poller (s : Watch) (ready : List (Nat × Mask)) : (s.fill ready).poller = s.poller := by
  induction ready generalizing s with
  | nil => rfl
  | cons event ready ih => exact ih _

/-- Neither the stored events nor the tie of a channel matter for the interest list. -/
theorem Watch.Listed.of_same {s t : Watch} (h : s.Listed) (hpoller : t.poller = s.poller)
    (hchannel : ∀ addr, (t.channel addr).addr = (s.channel addr).addr ∧
      (t.channel addr).fd_ = (s.channel addr).fd_ ∧ (t.channel addr).index_ = (s.channel addr).index_ ∧
      (t.channel addr).events_ = (s.channel addr).events_) : t.Listed := by
  refine ⟨fun addr => (hchannel addr).1.trans (h.addr_eq addr), ?_, ?_⟩
  · intro addr hadded
    obtain ⟨_, hfd, hindex, hevents⟩ := hchannel addr
    rw [hpoller, hfd, hevents]
    exact h.entry addr (hindex.symm.trans hadded)
  · intro fd event hevent
    rw [hpoller] at hevent
    obtain ⟨hadded, hfd⟩ := h.marked fd event hevent
    obtain ⟨_, hfd', hindex, _⟩ := hchannel event.ptr
    exact ⟨hindex.trans hadded, hfd'.trans hfd⟩

/-- The callbacks that a dispatch makes depend on the stored events and the address only. -/
theorem Channel.handlers_eq {before after : Channel} (haddr : after.addr = before.addr)
    (hrevents : after.revents_ = before.revents_) (isSet : Nat → EventCallback → Bool) :
    after.handlers isSet = before.handlers isSet := by
  unfold Channel.handlers Channel.handleEventWithGuard
  rw [haddr, hrevents]

/-- What keeps events from channels that are off: they are not marked as added, nothing
of them is due, and no callback has started while its channel was off. -/
structure Pass.Clean (isSet : Nat → EventCallback → Bool) (s : Pass) : Prop where
  listed : s.watch.poller.exited = false → s.watch.Listed
  unmarked : ∀ addr, switchedOff addr s.log = true → (s.watch.channel addr).index_ ≠ .kAdded
  undue : ∀ addr, switchedOff addr s.log = true → s.isDue isSet addr = false
  on : ∀ addr callback, Whenever (.started addr callback) (fun before => switchedOff addr before = false) s.log

namespace Pass.Clean

variable {isSet : Nat → EventCallback → Bool} {s t : Pass}

theorem start (fd : Nat → Nat) : (Pass.start fd).Clean isSet := by
  refine ⟨fun _ => .start fd, ?_, ?_, fun _ _ => whenever_nil _ _⟩ <;>
  · intro addr hoff
    cases hoff

/-- What is due does not depend on the interest in a channel or on its mark. -/
theorem isDue_eq (isSet : Nat → EventCallback → Bool) (s t : Pass) (hactive : t.active = s.active)
    (hdue : t.due = s.due)
    (haddr : ∀ addr, (t.watch.channel addr).addr = (s.watch.channel addr).addr)
    (hrevents : ∀ addr, (t.watch.channel addr).revents_ = (s.watch.channel addr).revents_) (addr : Nat) :
    t.isDue isSet addr = s.isDue isSet addr := by
  unfold Pass.isDue
  rw [hactive, hdue, Channel.handlers_eq (haddr addr) (hrevents addr)]

/-- A channel that is off after an operation on it was not due, and is not marked as added. -/
theorem off_performed {addr : Nat} {op : ChannelOp} (hok : SwitchesClean isSet s (.perform addr op))
    (hoff : op.switches.elim (switchedOff addr s.log) (!·) = true) :
    op.mark (s.watch.channel addr) ≠ .kAdded ∧ s.isDue isSet addr = false := by
  unfold SwitchesClean Pass.keeps at hok
  cases op with
  | enableReading | enableWriting => cases hoff
  | disableReading | disableWriting =>
    have hon : switchedOff addr s.log = false := by simpa using hok
    rw [ChannelOp.switches, Option.elim_none, hon] at hoff
    cases hoff
  | disableAll =>
    obtain ⟨hadded, hdue⟩ : (s.watch.channel addr).index_ = .kAdded ∧ s.isDue isSet addr = false := by
      simpa using hok
    exact ⟨by simp [ChannelOp.mark, ChannelOp.mask, nextIndex, hadded], hdue⟩
  | remove => exact ⟨by simp [ChannelOp.mark], by simpa using hok⟩

theorem perform (h : s.Clean isSet) {addr : Nat} {op : ChannelOp} (hexited : s.watch.poller.exited = false)
    (hok : SwitchesClean isSet s (.perform addr op)) {watch : Watch}
    (hstep : watching.step s.watch (addr, op) = some watch) :
    Pass.Clean isSet { s with watch, log := s.log ++ [.performed addr op] } := by
  obtain ⟨hlisted, hunmarked, hundue, hon⟩ := h
  have hchannel : watch.channel = Function.update s.watch.channel addr { s.watch.channel addr with
      events_ := op.mask (s.watch.channel addr).events_, index_ := op.mark (s.watch.channel addr) } := by
    simp only [watching, hexited, Bool.false_eq_true, if_false, Option.some.injEq] at hstep
    rw [← hstep, ← perform_snd s.watch.poller]
  have hkept (other : Nat) : (watch.channel other).addr = (s.watch.channel other).addr ∧
      (watch.channel other).revents_ = (s.watch.channel other).revents_ := by
    rw [hchannel]
    by_cases hother : other = addr
    · subst other
      simp
    · simp [hother]
  have hsame (other : Nat) := isDue_eq isSet s { s with watch, log := s.log ++ [.performed addr op] } rfl rfl
    (fun other => (hkept other).1) (fun other => (hkept other).2) other
  refine ⟨fun hgoes => ((hlisted hexited).perform hstep hgoes).1, ?_, ?_, ?_⟩
  · intro other hoff
    rw [switchedOff_performed] at hoff
    by_cases hother : addr = other
    · subst other
      simp only [hchannel, Function.update_self]
      exact (off_performed hok (by simpa using hoff)).1
    · rw [if_neg hother] at hoff
      simp only [hchannel, Function.update_of_ne (Ne.symm hother)]
      exact hunmarked other hoff
  · intro other hoff
    rw [hsame]
    rw [switchedOff_performed] at hoff
    by_cases hother : addr = other
    · subst other
      exact (off_performed hok (by simpa using hoff)).2
    · rw [if_neg hother] at hoff
      exact hundue other hoff
  · intro other callback
    exact (hon other callback).snoc (fun heq => by cases heq)

/-- A step that only takes from what is due. -/
theorem of_less (h : s.Clean isSet) (hpoller : t.watch.poller = s.watch.poller)
    (hchannel : ∀ addr, (t.watch.channel addr).addr = (s.watch.channel addr).addr ∧
      (t.watch.channel addr).fd_ = (s.watch.channel addr).fd_ ∧
      (t.watch.channel addr).index_ = (s.watch.channel addr).index_ ∧
      (t.watch.channel addr).events_ = (s.watch.channel addr).events_)
    (hlog : t.log = s.log)
    (hdue : ∀ addr, switchedOff addr s.log = true → s.isDue isSet addr = false → t.isDue isSet addr = false) :
    t.Clean isSet := by
  obtain ⟨hlisted, hunmarked, hundue, hon⟩ := h
  refine ⟨?_, ?_, ?_, by rw [hlog]; exact hon⟩
  · rw [hpoller]
    exact fun hexited => (hlisted hexited).of_same hpoller hchannel
  · intro addr hoff
    rw [hlog] at hoff
    rw [(hchannel addr).2.2.1]
    exact hunmarked addr hoff
  · intro addr hoff
    rw [hlog] at hoff
    exact hdue addr hoff (hundue addr hoff)

/-- A dispatch turns what is due of its channel into callbacks. -/
theorem handleEvent (h : s.Clean isSet) {addr : Nat} {rest : List Nat} {callbacks : List EventCallback}
    (hdue : s.due = []) (hactive : s.active = addr :: rest)
    (hcallbacks : callbacks = [] ∨ callbacks = (s.watch.channel addr).handlers isSet) :
    Pass.Clean isSet { s with active := rest, due := callbacks.map fun callback => (addr, callback) } := by
  refine h.of_less rfl (fun _ => ⟨rfl, rfl, rfl, rfl⟩) rfl fun other _ hnone => ?_
  simp only [Pass.isDue, hdue, hactive, List.any_nil, Bool.false_or, List.contains_cons] at hnone
  simp only [Pass.isDue, Bool.or_eq_false_iff]
  by_cases hother : other = addr
  · subst other
    have hempty : (s.watch.channel addr).handlers isSet = [] := by simpa using hnone
    rw [hempty] at hcallbacks ⊢
    rw [or_self_iff.mp hcallbacks]
    simp
  · have hne : (other == addr) = false := by simpa using hother
    rw [hne, Bool.false_or] at hnone
    refine ⟨?_, hnone⟩
    rw [List.any_map, List.any_eq_false]
    intro callback _
    simpa using Ne.symm hother

/-- A callback that starts is due, so its channel is not off. -/
theorem callback (h : s.Clean isSet) {addr : Nat} {callback : EventCallback}
    {rest : List (Nat × EventCallback)} (hdue : s.due = (addr, callback) :: rest) :
    Pass.Clean isSet { s with stage := .calling, due := rest, log := s.log ++ [.started addr callback] } := by
  obtain ⟨hlisted, hunmarked, hundue, hon⟩ := h
  refine ⟨hlisted, ?_, ?_, ?_⟩
  · intro other hoff
    rw [switchedOff_started] at hoff
    exact hunmarked other hoff
  · intro other hoff
    rw [switchedOff_started] at hoff
    have hnone := hundue other hoff
    simp only [Pass.isDue, hdue, List.any_cons, Bool.or_eq_false_iff] at hnone ⊢
    exact ⟨hnone.1.2, hnone.2⟩
  · intro other started
    refine (hon other started).snoc ?_
    intro heq
    cases heq
    by_contra hnot
    have hnone := hundue addr (by simpa using hnot)
    simp [Pass.isDue, hdue] at hnone

theorem poll (h : s.Clean isSet) (hexited : s.watch.poller.exited = false) {ready : List (Nat × Mask)}
    (hready : ∀ event ∈ ready, s.watch.registered event.1 = true) :
    Pass.Clean isSet { s with watch := s.watch.fill ready, stage := .passing, active := ready.map Prod.fst } := by
  refine h.of_less (Watch.fill_poller _ _) (fun addr => ?_) rfl fun addr hoff hnone => ?_
  · obtain ⟨revents, heq⟩ := s.watch.fill_channel ready addr
    simp only [heq]
    exact ⟨rfl, rfl, rfl, rfl⟩
  · have habsent : addr ∉ ready.map Prod.fst := by
      intro hmem
      obtain ⟨event, hevent, rfl⟩ := List.mem_map.mp hmem
      exact h.unmarked _ hoff ((h.listed hexited).kAdded_of_registered (hready event hevent))
    simp only [Pass.isDue, Bool.or_eq_false_iff] at hnone ⊢
    exact ⟨hnone.1, by simp [habsent]⟩

theorem tie (h : s.Clean isSet) (addr : Nat) :
    Pass.Clean isSet { s with watch := { s.watch with
      channel := Function.update s.watch.channel addr (s.watch.channel addr).tie } } := by
  have hkept (other : Nat) : ∃ tied, Function.update s.watch.channel addr (s.watch.channel addr).tie other =
      { s.watch.channel other with tied_ := tied } := by
    by_cases hother : other = addr
    · subst other
      exact ⟨true, by simp [Channel.tie]⟩
    · exact ⟨(s.watch.channel other).tied_, by simp [hother]⟩
  refine h.of_less rfl (fun other => ?_) rfl fun other _ hnone => ?_
  · obtain ⟨tied, heq⟩ := hkept other
    simp only [heq, and_self]
  · rw [isDue_eq isSet s, hnone]
    · rfl
    · rfl
    · intro other
      obtain ⟨tied, heq⟩ := hkept other
      simp only [heq]
    · intro other
      obtain ⟨tied, heq⟩ := hkept other
      simp only [heq]

/-- Each step that switches channels clean keeps them clean. -/
theorem step (h : s.Clean isSet) {i : PassInput} (hok : SwitchesClean isSet s i)
    (hstep : s.step isSet i = some t) : t.Clean isSet := by
  unfold Pass.step at hstep
  split at hstep
  · cases hstep
  · next hexited =>
    have hexited : s.watch.poller.exited = false := by simpa using hexited
    cases i with
    | perform addr op =>
      simp only [Pass.advance] at hstep
      split at hstep
      · cases hstep
      · obtain ⟨watch, hwatch, rfl⟩ := Option.map_eq_some_iff.mp hstep
        exact h.perform hexited hok hwatch
    | tie addr =>
      simp only [Pass.advance] at hstep
      split at hstep
      · cases hstep
      · cases hstep
        exact h.tie addr
    | poll ready =>
      simp only [Pass.advance] at hstep
      split at hstep
      · next hready =>
        cases hstep
        exact h.poll hexited hready.2
      · cases hstep
    | handleEvent alive =>
      simp only [Pass.advance] at hstep
      split at hstep
      · next addr rest _ hdue hactive =>
        cases hstep
        refine h.handleEvent hdue hactive ?_
        split
        · exact .inl rfl
        · exact .inr rfl
      · cases hstep
    | callback =>
      simp only [Pass.advance] at hstep
      split at hstep
      · next hdue =>
        cases hstep
        exact h.callback hdue
      · cases hstep
    | returned | finish =>
      simp only [Pass.advance] at hstep
      split at hstep
      · cases hstep
        exact h.of_less rfl (fun _ => ⟨rfl, rfl, rfl, rfl⟩) rfl (fun _ _ hdue => hdue)
      · cases hstep

end Pass.Clean

/-- No event is delivered to a channel that was switched off. In every run that
switches channels clean, whatever descriptors and callbacks the channels have, no
callback starts on a channel for which `disableAll` or `remove` has returned, until
it is enabled again. -/
theorem no_event_when_off {isSet : Nat → EventCallback → Bool} {fd : Nat → Nat} {s : Pass}
    (hrun : (passes isSet).Steps (SwitchesClean isSet) (Pass.start fd) s) (addr : Nat)
    (callback : EventCallback) :
    Whenever (.started addr callback) (fun before => switchedOff addr before = false) s.log :=
  (hrun.invariant (fun _ _ _ h hok hstep => h.step hok hstep) (Pass.Clean.start fd)).on addr callback

/-- Every callback of every channel is set. -/
def allSet : Nat → EventCallback → Bool := fun _ _ => true

/-- Two channels are ready; the read callback of the second one switches the first one
off, which has been dispatched by then, and itself, and is enabled again later. -/
def switchedAfter : List PassInput :=
  [.perform 3 .enableReading, .perform 5 .enableReading, .poll [(3, EPOLLIN), (5, EPOLLIN)],
    .handleEvent true, .callback, .returned, .handleEvent true, .callback, .perform 3 .disableAll,
    .perform 5 .disableAll, .returned, .finish, .perform 5 .enableReading, .poll [(5, EPOLLIN)],
    .handleEvent true, .callback]

theorem no_event_when_off_after :
    ∃ s, (passes allSet).run (Pass.start id) switchedAfter = some s ∧
      Whenever (.started 5 .readCallback_) (fun before => switchedOff 5 before = false) s.log := by
  have hruns : ((passes allSet).run (Pass.start id) switchedAfter).isSome = true := by
    decide +kernel
  obtain ⟨s, hrun⟩ := Option.isSome_iff_exists.mp hruns
  exact ⟨s, hrun, no_event_when_off (Machine.steps_of_run hrun (by decide +kernel)) 5 .readCallback_⟩

/-- Two channels are ready; the read callback of the first one switches the second one
off, which is then dispatched all the same. And a channel that hangs up with urgent
data switches itself off in its close callback, and its read callback follows. -/
theorem event_when_off :
    (∃ s, (passes allSet).run (Pass.start id) [.perform 3 .enableReading, .perform 5 .enableReading,
        .poll [(3, EPOLLIN), (5, EPOLLIN)], .handleEvent true, .callback, .perform 5 .disableAll, .returned,
        .handleEvent true, .callback] = some s ∧
      s.log = [.performed 3 .enableReading, .performed 5 .enableReading, .started 3 .readCallback_,
        .performed 5 .disableAll, .started 5 .readCallback_]) ∧
    ∃ s, (passes allSet).run (Pass.start id) [.perform 3 .enableReading,
        .poll [(3, EPOLLHUP ||| EPOLLPRI)], .handleEvent true, .callback, .perform 3 .disableAll, .returned,
        .callback] = some s ∧
      s.log = [.performed 3 .enableReading, .started 3 .closeCallback_, .performed 3 .disableAll,
        .started 3 .readCallback_] := by
  constructor
  · exact Option.map_eq_some_iff.mp (show ((passes allSet).run (Pass.start id) [.perform 3 .enableReading,
      .perform 5 .enableReading, .poll [(3, EPOLLIN), (5, EPOLLIN)], .handleEvent true, .callback,
      .perform 5 .disableAll, .returned, .handleEvent true, .callback]).map Pass.log = some _ by decide +kernel)
  · exact Option.map_eq_some_iff.mp (show ((passes allSet).run (Pass.start id) [.perform 3 .enableReading,
      .poll [(3, EPOLLHUP ||| EPOLLPRI)], .handleEvent true, .callback, .perform 3 .disableAll, .returned,
      .callback]).map Pass.log = some _ by decide +kernel)

end muduo.epoll
