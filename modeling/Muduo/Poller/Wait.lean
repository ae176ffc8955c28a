import Muduo.Poller.Dispatch
import Mathlib.Algebra.Group.Nat.Defs
import Mathlib.Data.List.Nodup

open transition record

namespace muduo.epoll

/-- The number of elements as the `int` that `epoll_wait` is given. -/
def maxevents (size : Nat) : Int := (BitVec.ofNat 32 size).toInt

/-- What the kernel reports on a descriptor with some readiness: errors and hangups
whether or not they are asked for. -/
def EpollEvent.report (event : EpollEvent) (readiness : Mask) : EpollEvent :=
  { event with events := readiness &&& (event.events ||| (EPOLLERR ||| EPOLLHUP)) }

/-- Whether there is something to report on a descriptor. -/
def isReady (interest : Nat → Option EpollEvent) (readiness : Nat → Mask) (fd : Nat) : Bool :=
  (interest fd).any fun event => (event.report (readiness fd)).events != 0

/-- `epoll_wait`, with the kernel's list of ready descriptors in its order: as many of
them as fit are reported. It fails on a size that is not positive. -/
def epoll_wait (interest : Nat → Option EpollEvent) (readiness : Nat → Mask) (order : List Nat) (maxevents : Int) :
    Option (List EpollEvent) :=
  if 0 < maxevents then
    some ((order.take maxevents.toNat).filterMap fun fd => (interest fd).map fun event => event.report (readiness fd))
  else none

def kInitEventListSize : Nat := 16

/-- A call of `epoll_wait` that reported something. -/
structure Waited where
  ready : Nat
  maxevents : Int
  numEvents : Nat
  deriving DecidableEq

/-- The call filled the array. -/
def Waited.fills (wait : Waited) : Bool := decide ((wait.numEvents : Int) = wait.maxevents)

/-- The call left a ready descriptor out. -/
def Waited.leavesOut (wait : Waited) : Bool := decide (wait.numEvents < wait.ready)

/-- A loop that polls its descriptors. `events_` is the poller's array, `readiness` what
could be read and written where. -/
structure Polling where
  pass : Pass
  readiness : Nat → Mask
  events_ : List EpollEvent
  waits : List Waited

/-- A step: of the loop and its channels, of the world, or a call of `poll`, which finds
descriptors ready in some order, or whose wait is interrupted. -/
inductive PollingInput where
  | code (i : PassInput)
  | ready (fd : Nat) (events : Mask)
  | poll (order : List Nat)
  | interrupted
  deriving DecidableEq

namespace Polling

def start (fd : Nat → Nat) : Polling where
  pass := .start fd
  readiness := fun _ => 0
  events_ := List.replicate kInitEventListSize { events := 0, ptr := 0 }
  waits := []

def isReady (s : Polling) (fd : Nat) : Bool := epoll.isReady s.pass.watch.poller.interest s.readiness fd

/-- The channels with their events, from the front of the array. -/
def fillActiveChannels (events_ : List EpollEvent) (numEvents : Nat) : List (Nat × Mask) :=
  (events_.take numEvents).map fun event => (event.ptr, event.events)

/-- The array is doubled when it has been filled. -/
def grow (events_ : List EpollEvent) (numEvents : Nat) : List EpollEvent :=
  if numEvents = events_.length then events_ ++ List.replicate events_.length { events := 0, ptr := 0 }
  else events_

/-- `poll`, called with an empty `activeChannels`. -/
def poll (isSet : Nat → EventCallback → Bool) (s : Polling) (order : List Nat) : Option Polling :=
  match epoll_wait s.pass.watch.poller.interest s.readiness order (maxevents s.events_.length) with
  | none => (s.pass.step isSet (.poll [])).map fun pass => { s with pass }
  | some reported =>
    let numEvents := reported.length
    let events_ := reported ++ s.events_.drop numEvents
    if 0 < numEvents then
      (s.pass.step isSet (.poll (fillActiveChannels events_ numEvents))).map fun pass =>
        { s with
          pass
          events_ := grow events_ numEvents
          waits := s.waits ++ [⟨order.length, maxevents s.events_.length, numEvents⟩] }
    else (s.pass.step isSet (.poll [])).map fun pass => { s with pass }

def step (isSet : Nat → EventCallback → Bool) (s : Polling) : PollingInput → Option Polling
  | .code (.poll _) => none
  | .code i => (s.pass.step isSet i).map fun pass => { s with pass }
  | .ready fd events => some { s with readiness := Function.update s.readiness fd events }
  | .poll order => if order.Nodup ∧ ∀ fd ∈ order, s.isReady fd = true then s.poll isSet order else none
  | .interrupted => (s.pass.step isSet (.poll [])).map fun pass => { s with pass }

end Polling

def polling (isSet : Nat → EventCallback → Bool) : Machine Polling PollingInput where
  step := Polling.step isSet

/-- What is reported was asked for, as far as it is not an error or a hangup. -/
theorem EpollEvent.meets_of_report {event : EpollEvent} {readiness mask : Mask}
    (h : (event.report readiness).events.meets mask = true) (hasked : (EPOLLERR ||| EPOLLHUP) &&& mask = 0#32) :
    event.events.meets mask = true := by
  by_contra hnot
  have hnone : event.events &&& mask = 0#32 := by simpa [Mask.meets] using hnot
  simp only [EpollEvent.report, Mask.meets, bne_iff_ne] at h
  apply h
  rw [BitVec.and_assoc, BitVec.and_or_distrib_right, hnone, hasked, BitVec.or_zero, BitVec.and_zero]
  rfl

/-- What a channel that is made active is told: what was asked for of what is there, with
errors and hangups. It is not told nothing, and its callbacks are those that it watches for. -/
structure Channel.ToldOf (channel : Channel) (readiness : Mask) : Prop where
  revents_eq : channel.revents_ = readiness &&& (channel.events_ ||| (EPOLLERR ||| EPOLLHUP))
  revents_ne : channel.revents_ ≠ 0
  reads : .readCallback_ ∈ channel.handleEventWithGuard → channel.isReading = true
  writes : .writeCallback_ ∈ channel.handleEventWithGuard → channel.isWriting = true

theorem Channel.readCallback_mem_iff (channel : Channel) :
    .readCallback_ ∈ channel.handleEventWithGuard ↔ channel.revents_.meets kReadEvent = true := by
  simp [handleEventWithGuard, List.mem_ite_nil_right, kReadEvent]

theorem Channel.writeCallback_mem_iff (channel : Channel) :
    .writeCallback_ ∈ channel.handleEventWithGuard ↔ channel.revents_.meets kWriteEvent = true := by
  simp [handleEventWithGuard, List.mem_ite_nil_right, kWriteEvent]

theorem Channel.toldOf_report (channel : Channel) {event : EpollEvent} {readiness : Mask}
    (hevents : event.events = channel.events_) (hnonempty : (event.report readiness).events ≠ 0) :
    (channel.set_revents (event.report readiness).events).ToldOf readiness := by
  have hasked {mask : Mask} (hmeets : (event.report readiness).events.meets mask = true)
      (hmask : (EPOLLERR ||| EPOLLHUP) &&& mask = 0#32) : channel.events_.meets mask = true := by
    rw [← hevents]
    exact EpollEvent.meets_of_report hmeets hmask
  refine ⟨?_, hnonempty, ?_, ?_⟩
  · simp only [Channel.set_revents, EpollEvent.report, hevents]
  · intro hmem
    exact hasked ((Channel.readCallback_mem_iff _).mp hmem) (by decide)
  · intro hmem
    exact hasked ((Channel.writeCallback_mem_iff _).mp hmem) (by decide)

/-- Storing events leaves the channels alone that are not ready. -/
theorem Watch.fill_of_notMem {s : Watch} {ready : List (Nat × Mask)} {addr : Nat}
    (h : addr ∉ ready.map Prod.fst) : (s.fill ready).channel addr = s.channel addr := by
  induction ready generalizing s with
  | nil => rfl
  | cons event ready ih =>
    rw [List.map_cons, List.mem_cons, not_or] at h
    exact (ih h.2).trans (Function.update_of_ne h.1 _ _)

/-- A channel that is listed once gets the events that it is listed with. -/
theorem Watch.fill_of_mem {s : Watch} {ready : List (Nat × Mask)} {addr : Nat} {revents : Mask}
    (hnodup : (ready.map Prod.fst).Nodup) (hmem : (addr, revents) ∈ ready) :
    (s.fill ready).channel addr = (s.channel addr).set_revents revents := by
  induction ready generalizing s with
  | nil => cases hmem
  | cons event ready ih =>
    rw [List.map_cons, List.nodup_cons] at hnodup
    obtain rfl | hmem := List.mem_cons.mp hmem
    · exact (Watch.fill_of_notMem hnodup.1).trans (Function.update_self _ _ _)
    · have hne : addr ≠ event.1 := by
        intro heq
        exact hnodup.1 (heq ▸ List.mem_map_of_mem (f := Prod.fst) hmem)
      have hkept : Function.update s.channel event.1 ((s.channel event.1).set_revents event.2) addr =
          s.channel addr := Function.update_of_ne hne _ _
      exact (ih hnodup.2 hmem).trans (congrArg (fun channel => Channel.set_revents channel revents) hkept)

section wait

variable {interest : Nat → Option EpollEvent} {readiness : Nat → Mask} {order : List Nat}

theorem isReady_iff {fd : Nat} : isReady interest readiness fd = true ↔
    ∃ event, interest fd = some event ∧ (event.report (readiness fd)).events ≠ 0 := by
  unfold isReady
  rw [Option.any_eq_true]
  simp

/-- What is reported are the first descriptors of the kernel's list. -/
theorem mem_epoll_wait {maxevents : Int} {reported : List EpollEvent}
    (hwait : epoll_wait interest readiness order maxevents = some reported) {event : EpollEvent} :
    event ∈ reported ↔ ∃ fd ∈ order.take maxevents.toNat, ∃ asked, interest fd = some asked ∧
      event = asked.report (readiness fd) := by
  unfold epoll_wait at hwait
  obtain ⟨_, heq⟩ := Option.ite_none_right_eq_some.mp hwait
  cases heq
  rw [List.mem_filterMap]
  constructor
  · rintro ⟨fd, hfd, hevent⟩
    obtain ⟨asked, hasked, rfl⟩ := Option.map_eq_some_iff.mp hevent
    exact ⟨fd, hfd, asked, hasked, rfl⟩
  · rintro ⟨fd, hfd, asked, hasked, rfl⟩
    exact ⟨fd, hfd, by rw [hasked, Option.map_some]⟩

/-- As many descriptors are reported as are ready and fit. -/
theorem length_epoll_wait {maxevents : Int} {reported : List EpollEvent}
    (hready : ∀ fd ∈ order, isReady interest readiness fd = true)
    (hwait : epoll_wait interest readiness order maxevents = some reported) :
    0 < maxevents ∧ reported.length = min maxevents.toNat order.length := by
  unfold epoll_wait at hwait
  obtain ⟨hpositive, heq⟩ := Option.ite_none_right_eq_some.mp hwait
  cases heq
  refine ⟨hpositive, ?_⟩
  rw [← List.length_take]
  apply List.filterMap_length_eq_length.mpr
  intro fd hfd
  obtain ⟨event, hevent, _⟩ := isReady_iff.mp (hready fd (List.mem_of_mem_take hfd))
  simp [hevent]

end wait

/-- No channel is reported twice. -/
theorem Watch.Listed.nodup_epoll_wait {s : Watch} (h : s.Listed) {readiness : Nat → Mask} {order : List Nat}
    {maxevents : Int} {reported : List EpollEvent} (hnodup : order.Nodup)
    (hwait : epoll_wait s.poller.interest readiness order maxevents = some reported) :
    (reported.map EpollEvent.ptr).Nodup := by
  unfold epoll_wait at hwait
  obtain ⟨_, heq⟩ := Option.ite_none_right_eq_some.mp hwait
  cases heq
  rw [List.map_filterMap]
  refine List.Nodup.filterMap ?_ (hnodup.sublist (List.take_sublist _ _))
  intro fd other addr hfd hother
  have hplace {fd : Nat} (hmem : addr ∈ ((s.poller.interest fd).map fun event => event.report (readiness fd)).map
      EpollEvent.ptr) : (s.channel addr).fd_ = fd := by
    obtain ⟨event, hevent, rfl⟩ := Option.map_eq_some_iff.mp hmem
    obtain ⟨asked, hasked, rfl⟩ := Option.map_eq_some_iff.mp hevent
    exact (h.marked fd asked hasked).2
  exact (hplace hfd).symm.trans (hplace hother)

variable {isSet : Nat → EventCallback → Bool}

/-- The interest list stays in order as long as the process goes on. -/
theorem Pass.listed_step {s t : Pass} {i : PassInput}
    (h : s.watch.poller.exited = false → s.watch.Listed) (hstep : s.step isSet i = some t) :
    t.watch.poller.exited = false → t.watch.Listed := by
  unfold Pass.step at hstep
  split at hstep
  · cases hstep
  · next hexited =>
    have hlisted := h (by simpa using hexited)
    cases i with
    | perform addr op =>
      simp only [Pass.advance] at hstep
      split at hstep
      · cases hstep
      · obtain ⟨watch, hwatch, rfl⟩ := Option.map_eq_some_iff.mp hstep
        exact fun hgoes => (hlisted.perform hwatch hgoes).1
    | tie addr =>
      simp only [Pass.advance] at hstep
      split at hstep
      · cases hstep
      · cases hstep
        refine fun _ => hlisted.of_same rfl fun other => ?_
        simp only [Function.update_apply]
        split
        · next heq =>
          subst heq
          exact ⟨rfl, rfl, rfl, rfl⟩
        · exact ⟨rfl, rfl, rfl, rfl⟩
    | poll ready =>
      simp only [Pass.advance] at hstep
      split at hstep
      · cases hstep
        refine fun _ => hlisted.of_same (Watch.fill_poller _ _) fun other => ?_
        obtain ⟨revents, heq⟩ := s.watch.fill_channel ready other
        rw [heq]
        exact ⟨rfl, rfl, rfl, rfl⟩
      · cases hstep
    | handleEvent alive | callback | returned | finish =>
      simp only [Pass.advance] at hstep
      split at hstep
      · cases hstep
        exact fun _ => hlisted
      · cases hstep

theorem maxevents_eq {size : Nat} (h : size < 2 ^ 31) : maxevents size = size := by
  unfold maxevents
  rw [BitVec.toInt_eq_toNat_of_lt] <;> rw [BitVec.toNat_ofNat] <;> omega

/-- An array of `2 ^ 31` elements has no size that `epoll_wait` accepts. -/
theorem lt_of_maxevents_pos {size : Nat} (hle : size ≤ 2 ^ 31) (hpositive : 0 < maxevents size) : size < 2 ^ 31 := by
  by_contra hnot
  obtain rfl : size = 2 ^ 31 := by omega
  revert hpositive
  decide

namespace Polling

/-- What `poll` does when it is called between two passes: it reports what the kernel lists
as far as it fits, and doubles the array if that has filled it. -/
inductive Polls (s : Polling) (order : List Nat) : Polling → Prop where
  | nothing (hnone : epoll_wait s.pass.watch.poller.interest s.readiness order (maxevents s.events_.length) = none ∨
        order = []) :
      Polls s order { s with pass := { s.pass with stage := .passing, active := [] } }
  | reported (filled : List EpollEvent) (hsome : order ≠ [])
      (hwait : epoll_wait s.pass.watch.poller.interest s.readiness order (maxevents s.events_.length) = some filled) :
      Polls s order { s with
        pass := { s.pass with
          watch := s.pass.watch.fill (filled.map fun event => (event.ptr, event.events))
          stage := .passing
          active := filled.map EpollEvent.ptr }
        events_ := grow (filled ++ s.events_.drop filled.length) filled.length
        waits := s.waits ++ [⟨order.length, maxevents s.events_.length, filled.length⟩] }

theorem fillActiveChannels_append (filled rest : List EpollEvent) :
    fillActiveChannels (filled ++ rest) filled.length = filled.map fun event => (event.ptr, event.events) := by
  rw [fillActiveChannels, List.take_left]

/-- The channels that the kernel reports are registered, so the loop can dispatch them. -/
theorem step_poll (isSet : Nat → EventCallback → Bool) {s : Polling} {order : List Nat} (hlisted : s.pass.watch.Listed)
    (hexited : s.pass.watch.poller.exited = false) (hidle : s.pass.stage = .idle) (hnodup : order.Nodup)
    (hready : ∀ fd ∈ order, s.isReady fd = true) :
    ∃ t, s.step isSet (.poll order) = some t ∧ s.Polls order t := by
  have hpass (ready : List (Nat × Mask)) (hregistered : ∀ event ∈ ready, s.pass.watch.registered event.1 = true) :
      s.pass.step isSet (.poll ready) = some { s.pass with
        watch := s.pass.watch.fill ready, stage := .passing, active := ready.map Prod.fst } := by
    unfold Pass.step
    rw [if_neg (by simp [hexited])]
    exact if_pos ⟨hidle, hregistered⟩
  simp only [step, if_pos (And.intro hnodup hready), poll]
  cases hwait : epoll_wait s.pass.watch.poller.interest s.readiness order (maxevents s.events_.length) with
  | none =>
    rw [hpass [] (by simp)]
    exact ⟨_, rfl, .nothing (.inl hwait)⟩
  | some filled =>
    obtain ⟨hpositive, hlength⟩ := length_epoll_wait hready hwait
    by_cases hsome : order = []
    · have hempty : filled.length = 0 := by simp [hlength, hsome]
      simp only [hempty, Nat.lt_irrefl, if_false]
      rw [hpass [] (by simp)]
      exact ⟨_, rfl, .nothing (.inr hsome)⟩
    · have hnonempty : 0 < filled.length := by
        have horder := List.length_pos_iff.mpr hsome
        omega
      have hregistered : ∀ event ∈ filled.map (fun event => (event.ptr, event.events)),
          s.pass.watch.registered event.1 = true := by
        intro entry hentry
        obtain ⟨event, hevent, rfl⟩ := List.mem_map.mp hentry
        obtain ⟨fd, _, asked, hasked, rfl⟩ := (mem_epoll_wait hwait).mp hevent
        obtain ⟨_, hfd⟩ := hlisted.marked fd asked hasked
        simp [Watch.registered, EpollEvent.report, hfd, hasked]
      simp only [if_pos hnonempty, fillActiveChannels_append]
      rw [hpass _ hregistered]
      have hactive : (filled.map fun event => (event.ptr, event.events)).map Prod.fst =
          filled.map EpollEvent.ptr := by rw [List.map_map]; rfl
      refine ⟨_, rfl, ?_⟩
      rw [hactive]
      exact .reported filled hsome hwait

/-- What a step does: it is a step of the loop, it makes descriptors ready, or `poll`
reports some. -/
theorem moves_of_step {s t : Polling} {i : PollingInput} (hstep : s.step isSet i = some t) :
    (∃ j pass, s.pass.step isSet j = some pass ∧ t = { s with pass }) ∨
    (∃ fd events, t = { s with readiness := Function.update s.readiness fd events }) ∨
    ∃ order j pass filled, i = .poll order ∧ s.pass.step isSet j = some pass ∧ 0 < maxevents s.events_.length ∧
      List.length filled = min (maxevents s.events_.length).toNat order.length ∧ t = { s with
        pass
        events_ := grow (filled ++ s.events_.drop filled.length) filled.length
        waits := s.waits ++ [⟨order.length, maxevents s.events_.length, filled.length⟩] } := by
  have hmoves {j : PassInput} (hstep : (s.pass.step isSet j).map (fun pass => { s with pass }) = some t) :
      ∃ j pass, s.pass.step isSet j = some pass ∧ t = { s with pass } := by
    obtain ⟨pass, hpass, rfl⟩ := Option.map_eq_some_iff.mp hstep
    exact ⟨j, pass, hpass, rfl⟩
  cases i with
  | code i =>
    cases i with
    | poll ready => cases hstep
    | perform | tie | handleEvent | callback | returned | finish => exact .inl (hmoves hstep)
  | ready fd events =>
    cases hstep
    exact .inr (.inl ⟨fd, events, rfl⟩)
  | poll order =>
    obtain ⟨⟨_, hready⟩, hpoll⟩ := Option.ite_none_right_eq_some.mp hstep
    unfold Polling.poll at hpoll
    cases hwait : epoll_wait s.pass.watch.poller.interest s.readiness order (maxevents s.events_.length) with
    | none =>
      rw [hwait] at hpoll
      exact .inl (hmoves hpoll)
    | some filled =>
      obtain ⟨hpositive, hlength⟩ := length_epoll_wait hready hwait
      simp only [hwait] at hpoll
      split at hpoll
      · obtain ⟨pass, hpass, rfl⟩ := Option.map_eq_some_iff.mp hpoll
        exact .inr (.inr ⟨order, _, pass, filled, rfl, hpass, hpositive, hlength, rfl⟩)
      · exact .inl (hmoves hpoll)
  | interrupted => exact .inl (hmoves hstep)

/-- A loop that polls makes the passes of a loop that is told what is ready. -/
theorem passes_run {ok : Polling → PollingInput → Prop} {fd : Nat → Nat} {s : Polling}
    (hrun : (polling isSet).Steps ok (start fd) s) :
    (passes isSet).Steps Machine.Any (Pass.start fd) s.pass := by
  refine hrun.invariant (P := fun s => (passes isSet).Steps Machine.Any (Pass.start fd) s.pass) ?_ (.refl _ _ _)
  intro s i t hpasses _ hstep
  obtain ⟨j, pass, hpass, rfl⟩ | ⟨_, _, rfl⟩ | ⟨_, j, pass, _, _, hpass, _, _, rfl⟩ := moves_of_step hstep
  · exact hpasses.tail (i := j) trivial hpass
  · exact hpasses
  · exact hpasses.tail (i := j) trivial hpass

/-- What holds in a run whose calls of `poll` find at most `n` descriptors ready at once:
the array has been doubled each time it was filled, and is no larger than that takes. -/
structure Grown (n : Nat) (s : Polling) : Prop where
  length_eq : s.events_.length = kInitEventListSize * 2 ^ s.waits.countP Waited.fills
  length_le : s.events_.length ≤ 2 ^ 31
  length_le_peak : s.events_.length ≤ max kInitEventListSize (2 * n)
  waits : ∀ wait ∈ s.waits, wait.leavesOut = true → wait.fills = true

/-- At most `n` descriptors are ready at once. -/
def AtMost (n : Nat) : PollingInput → Prop
  | .poll order => order.length ≤ n
  | _ => True

instance (n : Nat) : ∀ i, Decidable (AtMost n i)
  | .poll order => inferInstanceAs (Decidable (order.length ≤ n))
  | .code _ | .ready _ _ | .interrupted => inferInstanceAs (Decidable True)

theorem start_grown (n : Nat) (fd : Nat → Nat) : (start fd).Grown n := by
  have hlength : (start fd).events_.length = kInitEventListSize := List.length_replicate
  refine ⟨hlength, ?_, ?_, ?_⟩
  · rw [hlength]
    decide
  · rw [hlength]
    exact Nat.le_max_left _ _
  · intro wait hmem
    cases hmem

theorem length_grow (filled events_ : List EpollEvent) (hfits : filled.length ≤ events_.length) :
    (grow (filled ++ events_.drop filled.length) filled.length).length =
      if filled.length = events_.length then events_.length * 2 else events_.length := by
  have hlength : (filled ++ events_.drop filled.length).length = events_.length := by
    rw [List.length_append, List.length_drop]
    omega
  unfold grow
  rw [hlength]
  split
  · rw [List.length_append, List.length_replicate, hlength]
    omega
  · exact hlength

namespace Grown

variable {n : Nat} {s t : Polling}

/-- A step of the loop in which nothing is reported. -/
theorem of_pass (h : s.Grown n) (pass : Pass) : Polling.Grown n { s with pass } :=
  ⟨h.length_eq, h.length_le, h.length_le_peak, h.waits⟩

/-- Descriptors are reported. The array was filled if one was left out, and then it was small. -/
theorem of_reported {order : List Nat} {pass : Pass} {filled : List EpollEvent} (h : s.Grown n)
    (hmost : order.length ≤ n) (hpositive : 0 < maxevents s.events_.length)
    (hlength : filled.length = min (maxevents s.events_.length).toNat order.length) :
    Polling.Grown n { s with
      pass
      events_ := grow (filled ++ s.events_.drop filled.length) filled.length
      waits := s.waits ++ [⟨order.length, maxevents s.events_.length, filled.length⟩] } := by
  obtain ⟨hlengthEq, hle, hpeak, hwaits⟩ := h
  have hsmall := lt_of_maxevents_pos hle hpositive
  have hsize := maxevents_eq hsmall
  rw [hsize, Int.toNat_natCast] at hlength
  have hgrown := length_grow filled s.events_ (by omega)
  have hcount : (s.waits ++ ([⟨order.length, maxevents s.events_.length, filled.length⟩] : List Waited)).countP
      Waited.fills = s.waits.countP Waited.fills + if filled.length = s.events_.length then 1 else 0 := by
    have hfills : (filled.length : Int) = s.events_.length ↔ filled.length = s.events_.length := by omega
    rw [List.countP_append, List.countP_singleton, hsize]
    simp only [Waited.fills, decide_eq_true_eq, hfills]
  refine ⟨?_, ?_, ?_, ?_⟩
  · rw [hgrown, hcount, hlengthEq]
    split
    · rw [Nat.pow_succ, Nat.mul_assoc]
    · rfl
  · -- a power of two below `2 ^ 31` can be doubled
    rw [hgrown]
    split
    · rw [hlengthEq] at hsmall ⊢
      generalize s.waits.countP Waited.fills = k at hsmall ⊢
      have hpow : kInitEventListSize * 2 ^ k = 2 ^ (4 + k) := by rw [Nat.pow_add]; rfl
      rw [hpow] at hsmall ⊢
      have hk := (Nat.pow_lt_pow_iff_right (by omega)).mp hsmall
      rw [← Nat.pow_succ]
      exact Nat.pow_le_pow_right (by omega) hk
    · exact hle
  · rw [hgrown]
    split
    · have hmore : s.events_.length ≤ order.length := by omega
      omega
    · exact hpeak
  · intro wait hmem hless
    obtain hmem | hmem := List.mem_append.mp hmem
    · exact hwaits wait hmem hless
    · obtain rfl := List.mem_singleton.mp hmem
      simp only [Waited.leavesOut, Waited.fills, decide_eq_true_eq, hsize] at hless ⊢
      omega

theorem step {i : PollingInput} (h : s.Grown n) (hmost : AtMost n i) (hstep : s.step isSet i = some t) :
    t.Grown n := by
  obtain ⟨_, pass, _, rfl⟩ | ⟨fd, events, rfl⟩ | ⟨order, _, pass, filled, rfl, _, hpositive, hlength, rfl⟩ :=
    moves_of_step hstep
  · exact h.of_pass pass
  · exact ⟨h.length_eq, h.length_le, h.length_le_peak, h.waits⟩
  · exact h.of_reported hmost hpositive hlength

end Grown

end Polling

/-- `poll` tells each channel what the kernel has for it. In every state of every run of a
loop, whatever the kernel lists as ready in whatever order, each channel that `poll` makes
active is registered and active once, its mask is what was asked for of what is there, with
errors and hangups, and is not empty, so a read or write callback is only made on a channel
that watches for it; all other channels keep their masks; and none that is ready is left out
if the kernel lists all of them and the array holds them. -/
theorem poll_reports_ready {fd : Nat → Nat} {s : Polling} {order : List Nat}
    (hrun : (polling isSet).Steps Machine.Any (.start fd) s) (hexited : s.pass.watch.poller.exited = false)
    (hidle : s.pass.stage = .idle) (hnodup : order.Nodup) (hready : ∀ fd ∈ order, s.isReady fd = true) :
    ∃ t, s.step isSet (.poll order) = some t ∧ t.pass.active.Nodup ∧
      (∀ addr ∈ t.pass.active, s.pass.watch.registered addr = true ∧
        (t.pass.watch.channel addr).ToldOf (s.readiness (s.pass.watch.channel addr).fd_)) ∧
      (∀ addr, addr ∉ t.pass.active → t.pass.watch.channel addr = s.pass.watch.channel addr) ∧
      ((∀ fd, s.isReady fd = true → fd ∈ order) → (order.length : Int) ≤ maxevents s.events_.length →
        ∀ addr, s.pass.watch.registered addr = true → s.isReady (s.pass.watch.channel addr).fd_ = true →
          addr ∈ t.pass.active) := by
  have hlisted : s.pass.watch.Listed :=
    (Polling.passes_run hrun).invariant (P := fun pass => pass.watch.poller.exited = false → pass.watch.Listed)
      (fun _ _ _ h _ hstep => Pass.listed_step h hstep) (fun _ => Watch.Listed.start fd) hexited
  obtain ⟨t, hstep, hpolls⟩ := Polling.step_poll isSet hlisted hexited hidle hnodup hready
  refine ⟨t, hstep, ?_⟩
  cases hpolls with
  | nothing hnone =>
    refine ⟨List.nodup_nil, by simp, fun _ _ => rfl, ?_⟩
    intro hall hfits addr _ haddr
    have hmem := List.length_pos_of_mem (hall _ haddr)
    obtain hnone | rfl := hnone
    · unfold epoll_wait at hnone
      rw [if_pos (by omega)] at hnone
      cases hnone
    · cases hmem
  | reported filled hsome hwait =>
    have hfilled := hlisted.nodup_epoll_wait hnodup hwait
    have hfirst : (filled.map fun event => (event.ptr, event.events)).map Prod.fst = filled.map EpollEvent.ptr := by
      rw [List.map_map]
      rfl
    refine ⟨hfilled, ?_, ?_, ?_⟩
    · intro addr haddr
      obtain ⟨event, hevent, rfl⟩ := List.mem_map.mp haddr
      have hchannel := Watch.fill_of_mem (s := s.pass.watch) (by rw [hfirst]; exact hfilled)
        (List.mem_map_of_mem (f := fun event : EpollEvent => (event.ptr, event.events)) hevent)
      obtain ⟨fd, hfd, asked, hasked, rfl⟩ := (mem_epoll_wait hwait).mp hevent
      obtain ⟨hadded, rfl⟩ := hlisted.marked fd asked hasked
      obtain ⟨other, hother, hnonempty⟩ := isReady_iff.mp (hready _ (List.mem_of_mem_take hfd))
      obtain rfl : other = asked := Option.mem_unique hother hasked
      have hentry := hlisted.entry _ hadded
      rw [hasked] at hentry
      have hevents : other.events = (s.pass.watch.channel other.ptr).events_ :=
        congrArg EpollEvent.events (Option.some.inj hentry)
      refine ⟨by simp [Watch.registered, EpollEvent.report, hasked], ?_⟩
      change Channel.ToldOf ((s.pass.watch.fill _).channel (other.report _).ptr) _
      rw [hchannel]
      exact Channel.toldOf_report _ hevents hnonempty
    · intro addr haddr
      exact Watch.fill_of_notMem (by rw [hfirst]; exact haddr)
    · intro hall hfits addr hregistered haddr
      obtain ⟨event, hevent, _⟩ := isReady_iff.mp haddr
      obtain rfl : event.ptr = addr := by simpa [Watch.registered, hevent] using hregistered
      refine List.mem_map.mpr ⟨event.report (s.readiness (s.pass.watch.channel event.ptr).fd_),
        (mem_epoll_wait hwait).mpr ⟨_, ?_, event, hevent, rfl⟩, rfl⟩
      rw [List.take_of_length_le (by omega)]
      exact hall _ haddr

/-- A channel that watches for reading, and one that only watches for writing while its peer
hangs up. -/
def oneHungUp : List PollingInput :=
  [.code (.perform 3 .enableReading), .ready 3 (EPOLLIN ||| EPOLLOUT), .code (.perform 5 .enableWriting),
    .ready 5 (EPOLLIN ||| EPOLLHUP)]

theorem poll_reports_ready_hungUp :
    ∃ s t, (polling allSet).run (.start id) oneHungUp = some s ∧ s.step allSet (.poll [5, 3]) = some t ∧
      t.pass.active.Nodup ∧
      (∀ addr ∈ t.pass.active, s.pass.watch.registered addr = true ∧
        (t.pass.watch.channel addr).ToldOf (s.readiness (s.pass.watch.channel addr).fd_)) ∧
      (∀ addr, addr ∉ t.pass.active → t.pass.watch.channel addr = s.pass.watch.channel addr) ∧
      ((∀ fd, s.isReady fd = true → fd ∈ [5, 3]) → (([5, 3] : List Nat).length : Int) ≤ maxevents s.events_.length →
        ∀ addr, s.pass.watch.registered addr = true → s.isReady (s.pass.watch.channel addr).fd_ = true →
          addr ∈ t.pass.active) := by
  have hruns : ((polling allSet).run (.start id) oneHungUp).any (fun s => decide
      (s.pass.watch.poller.exited = false ∧ s.pass.stage = .idle ∧
        ∀ fd ∈ ([5, 3] : List Nat), s.isReady fd = true)) = true := by
    decide +kernel
  obtain ⟨s, hrun, hfinal⟩ := Option.any_eq_true _ _ |>.mp hruns
  obtain ⟨hexited, hidle, hready⟩ := of_decide_eq_true hfinal
  obtain ⟨t, hpoll⟩ := poll_reports_ready
    (Machine.steps_of_run hrun (Machine.along_of_forall (fun _ _ _ => trivial) _)) hexited hidle (by decide) hready
  exact ⟨s, t, hrun, hpoll⟩

/-- Few calls of `poll` leave a ready descriptor out. In every run of a loop in which at most
`n` descriptors are ready at once, the array has twice its size for each call that filled
it, and never more elements than `2 ^ 31`, or than `n` calls for: below `2 ^ 30` ready
descriptors `epoll_wait` is told its size. Of the calls that reported something at most a
logarithm of `n / 8` left a ready descriptor out. -/
theorem few_waits_leave_out (n : Nat) {fd : Nat → Nat} {s : Polling}
    (hrun : (polling isSet).Steps (fun _ i => Polling.AtMost n i) (.start fd) s) :
    s.events_.length = kInitEventListSize * 2 ^ s.waits.countP Waited.fills ∧
    s.events_.length ≤ 2 ^ 31 ∧ s.events_.length ≤ max kInitEventListSize (2 * n) ∧
    (n < 2 ^ 30 → maxevents s.events_.length = s.events_.length) ∧
    8 * 2 ^ s.waits.countP Waited.leavesOut ≤ max 8 n := by
  obtain ⟨hlength, hle, hpeak, hwaits⟩ := hrun.invariant (P := Polling.Grown n)
    (fun _ _ _ h hmost hstep => Polling.Grown.step h hmost hstep) (Polling.start_grown n fd)
  have hsixteen : kInitEventListSize = 16 := rfl
  refine ⟨hlength, hle, hpeak, fun hfew => maxevents_eq (by omega), ?_⟩
  have hcount : s.waits.countP Waited.leavesOut ≤ s.waits.countP Waited.fills :=
    List.countP_mono_left hwaits
  have hpow := Nat.pow_le_pow_right (show 0 < 2 by omega) hcount
  rw [hlength, hsixteen] at hpeak
  omega

/-- Twenty descriptors are ready. The array holds sixteen of them, and then all. -/
def readyTwice : List PollingInput :=
  let watch (addr : Nat) : List PollingInput := [.code (.perform addr .enableReading), .ready addr EPOLLIN]
  let dispatch : List PollingInput := [.code (.handleEvent true), .code .callback, .code .returned]
  let order : List Nat := List.range 20
  order.flatMap watch ++ [.poll order] ++ (List.replicate 16 dispatch).flatten ++ [.code .finish, .poll order]

theorem few_waits_leave_out_twice :
    ∃ s, (polling allSet).run (.start id) readyTwice = some s ∧
      s.events_.length = kInitEventListSize * 2 ^ s.waits.countP Waited.fills ∧
      s.events_.length ≤ 2 ^ 31 ∧ s.events_.length ≤ max kInitEventListSize (2 * 20) ∧
      (20 < 2 ^ 30 → maxevents s.events_.length = s.events_.length) ∧
      8 * 2 ^ s.waits.countP Waited.leavesOut ≤ max 8 20 := by
  have hruns : ((polling allSet).run (.start id) readyTwice).isSome = true := by decide +kernel
  obtain ⟨s, hrun⟩ := Option.isSome_iff_exists.mp hruns
  exact ⟨s, hrun, few_waits_leave_out 20 (Machine.steps_of_run hrun (by decide +kernel))⟩

end muduo.epoll
