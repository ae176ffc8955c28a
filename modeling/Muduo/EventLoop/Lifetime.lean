import Muduo.Library.Table
import Muduo.Poller.Agreement
import Muduo.Thread

open table transition
open muduo.epoll
open muduo.thread (tid)

namespace muduo.event_loop_lifetime

/-- What the constructor of an `EventLoop` sets up, with the thread that has run it. -/
structure EventLoop (T : Type) where
  threadId_ : Nat
  poller_ : EPollPoller
  wakeupFd_ : Nat
  wakeupChannel_ : Channel
  owner : T

/-- The threads of a process with their thread-local variables, and its loops by address.
`threads` are the threads that live, by the ids that the kernel has given them, `gettids`
counts how often each has asked for its own, and `open_` are the descriptors in use. -/
structure System (T : Type) where
  threads : Nat → Option T
  tids : T → Nat
  t_cachedTid : T → Nat
  gettids : T → Nat
  t_loopInThisThread : T → Option Nat
  loops : Nat → Option (EventLoop T)
  open_ : Nat → Bool
  exited : Bool

/-- A thread comes or goes, or runs code that asks for its id, constructs or destroys a loop,
or performs an operation on another channel of a loop. -/
inductive Input (T : Type) where
  | spawn (t : T) (gettid : Nat)
  | finish (t : T)
  | tid (t : T)
  | construct (t : T) (loop channel : Nat) (evtfd : Option Nat)
  | perform (loop : Nat) (channel : Channel) (op : ChannelOp)
  | destroy (t : T) (loop : Nat)

namespace System

variable {T : Type}

/-- No thread and no loop. -/
def start : System T where
  threads := fun _ => none
  tids := fun _ => 0
  t_cachedTid := fun _ => 0
  gettids := fun _ => 0
  t_loopInThisThread := fun _ => none
  loops := fun _ => none
  open_ := fun _ => false
  exited := false

/-- `isInLoopThread` on a thread. -/
def isInLoopThread (s : System T) (t : T) (object : EventLoop T) : Bool :=
  object.threadId_ == tid (s.t_cachedTid t) (s.tids t)

variable [DecidableEq T]

def living (s : System T) (t : T) : Bool := s.threads (s.tids t) == some t

/-- A new thread, whose thread-local variables are fresh. -/
def spawn (s : System T) (t : T) (gettid : Nat) : System T :=
  { s with
    threads := Function.update s.threads gettid (some t)
    tids := Function.update s.tids t gettid
    t_cachedTid := Function.update s.t_cachedTid t 0
    gettids := Function.update s.gettids t 0
    t_loopInThisThread := Function.update s.t_loopInThisThread t none }

/-- `CurrentThread::tid()` on a thread. -/
def callTid (s : System T) (t : T) : System T :=
  { s with
    t_cachedTid := Function.update s.t_cachedTid t (tid (s.t_cachedTid t) (s.tids t))
    gettids := Function.update s.gettids t (s.gettids t + if s.t_cachedTid t = 0 then 1 else 0) }

/-- The constructor, with the answer of `eventfd`, when `MUDUO_USE_POLL` is not set: with it
there is no poller, and the constructor follows a null pointer. -/
def construct (s : System T) (t : T) (loop channel : Nat) (evtfd : Option Nat) : System T :=
  let s := s.callTid t
  match evtfd with
  | none => { s with exited := true }
  | some wakeupFd_ =>
    if (s.t_loopInThisThread t).isSome then { s with exited := true }
    else
      let (poller_, wakeupChannel_) := (Channel.construct channel wakeupFd_).enableReading .construct
      { s with
        t_loopInThisThread := Function.update s.t_loopInThisThread t (some loop)
        loops := Function.update s.loops loop (some
          { threadId_ := tid (s.t_cachedTid t) (s.tids t), poller_, wakeupFd_, wakeupChannel_, owner := t })
        open_ := Function.update s.open_ wakeupFd_ true }

/-- An operation on another channel, which the loop hands on to its poller. -/
def perform (s : System T) (loop : Nat) (object : EventLoop T) (channel : Channel) (op : ChannelOp) : System T :=
  let poller_ := (channel.perform object.poller_ op).1
  { s with loops := Function.update s.loops loop (some { object with poller_ }), exited := poller_.exited }

/-- The destructor, on whatever thread it runs. -/
def destroy (s : System T) (t : T) (loop : Nat) (object : EventLoop T) : System T :=
  let (poller_, wakeupChannel_) := object.wakeupChannel_.disableAll object.poller_
  let (poller_, _) := wakeupChannel_.remove poller_
  { s with
    t_loopInThisThread := Function.update s.t_loopInThisThread t none
    loops := Function.update s.loops loop none
    open_ := Function.update s.open_ object.wakeupFd_ false
    exited := poller_.exited }

/-- The kernel gives no two living threads one id, and `eventfd` answers with a descriptor
that is not in use. Another channel has another descriptor than the loop's `eventfd`. -/
def step (s : System T) (i : Input T) : Option (System T) :=
  if s.exited then none
  else match i with
  | .spawn t gettid =>
    if s.living t = false ∧ 0 < gettid ∧ s.threads gettid = none then some (s.spawn t gettid) else none
  | .finish t =>
    if s.living t = true then some { s with threads := Function.update s.threads (s.tids t) none } else none
  | .tid t => if s.living t = true then some (s.callTid t) else none
  | .construct t loop channel evtfd =>
    if s.living t = true ∧ s.loops loop = none ∧ evtfd.all (fun fd => !s.open_ fd) = true then
      some (s.construct t loop channel evtfd)
    else none
  | .perform loop channel op => (s.loops loop).bind fun object =>
    if channel.fd_ = object.wakeupFd_ then none else some (s.perform loop object channel op)
  | .destroy t loop =>
    if s.living t = true then (s.loops loop).map (s.destroy t loop) else none

end System

/-- The threads of a process and its loops. -/
def lifetimes (T : Type) [DecidableEq T] : Machine (System T) (Input T) where
  step := System.step

/-- Loops are destroyed by the threads that have constructed them, and before these end. -/
def AtHome {T : Type} [DecidableEq T] (s : System T) : Input T → Prop
  | .destroy t loop => (s.loops loop).all (fun object => object.owner == t) = true
  | .finish t => s.t_loopInThisThread t = none
  | _ => True

instance {T : Type} [DecidableEq T] (s : System T) : ∀ i, Decidable (AtHome s i)
  | .destroy _ _ => inferInstanceAs (Decidable (_ = _))
  | .finish _ => inferInstanceAs (Decidable (_ = _))
  | .spawn _ _ | .tid _ | .construct _ _ _ _ | .perform _ _ _ => isTrue trivial

/-- The pointer of each living thread is to the loop that it has constructed, if that exists,
and the threads of all loops live. -/
def Settled {T : Type} [DecidableEq T] (s : System T) : Prop :=
  (∀ t loop, s.living t = true →
    (s.t_loopInThisThread t = some loop ↔ ∃ object, s.loops loop = some object ∧ object.owner = t)) ∧
  ∀ loop object, s.loops loop = some object → s.living object.owner = true

/-- The loop's `eventfd` is watched: it is open, and the loop's poller and the kernel have it
with the channel and the mask that the constructor has asked for. -/
structure Watched {T : Type} (s : System T) (object : EventLoop T) : Prop where
  threadId_ : object.threadId_ = s.tids object.owner
  opened : s.open_ object.wakeupFd_ = true
  agrees : Agrees object.poller_ object.wakeupChannel_
  fd_ : object.wakeupChannel_.fd_ = object.wakeupFd_
  index_ : object.wakeupChannel_.index_ = .kAdded
  events_ : object.wakeupChannel_.events_ = kReadEvent
  exited : object.poller_.exited = false

/-- The invariant of the threads and loops of a process. -/
structure Sound {T : Type} [DecidableEq T] (s : System T) : Prop where
  exited : s.exited = false
  settled : Settled s
  tids : ∀ t, s.living t = true → 0 < s.tids t
  cached : ∀ t, s.living t = true →
    s.t_cachedTid t = 0 ∧ s.gettids t = 0 ∨ s.t_cachedTid t = s.tids t ∧ s.gettids t = 1
  watched : ∀ loop object, s.loops loop = some object → Watched s object
  distinct : ∀ loop other object object', s.loops loop = some object → s.loops other = some object' →
    object.wakeupFd_ = object'.wakeupFd_ → loop = other

namespace System

variable {T : Type} [DecidableEq T] {s : System T} {t u : T}

theorem living_iff : s.living t = true ↔ s.threads (s.tids t) = some t := by simp [living]

/-- Living threads have different ids. -/
theorem tids_injective (ht : s.living t = true) (hu : s.living u = true) (hsame : s.tids t = s.tids u) : t = u := by
  rw [living_iff] at ht hu
  rw [hsame, hu] at ht
  exact (Option.some.inj ht).symm

/-- What a living thread has cached, if anything, is its id. -/
theorem tid_eq (h : Sound s) (hliving : s.living t = true) : tid (s.t_cachedTid t) (s.tids t) = s.tids t := by
  obtain ⟨hnone, _⟩ | ⟨hcached, _⟩ := h.cached t hliving
  · simp [tid, muduo.thread.cacheTid, hnone]
  · have hpositive := h.tids t hliving
    rw [tid, if_neg (by omega), hcached]

theorem living_spawn {gettid : Nat} (hdead : s.living t = false) (hfree : s.threads gettid = none) (u : T) :
    (s.spawn t gettid).living u = true ↔ u = t ∨ s.living u = true := by
  by_cases hu : u = t
  · subst hu
    simp [living, spawn]
  · have htid : (s.spawn t gettid).tids u = s.tids u := Function.update_of_ne hu _ _
    rw [living_iff, living_iff, htid]
    by_cases hsame : s.tids u = gettid
    · have hnew : (s.spawn t gettid).threads (s.tids u) = some t := by
        rw [hsame]
        exact Function.update_self _ _ _
      rw [hnew, hsame, hfree]
      simp [hu, Ne.symm hu]
    · have hold : (s.spawn t gettid).threads (s.tids u) = s.threads (s.tids u) := Function.update_of_ne hsame _ _
      rw [hold]
      simp [hu]

theorem living_finish (hliving : s.living t = true) (u : T) :
    ({ s with threads := Function.update s.threads (s.tids t) none } : System T).living u = true ↔
      u ≠ t ∧ s.living u = true := by
  rw [living_iff, living_iff]
  by_cases hsame : s.tids u = s.tids t
  · have hgone : Function.update s.threads (s.tids t) none (s.tids u) = none := by
      rw [hsame, Function.update_self]
    change Function.update s.threads (s.tids t) none (s.tids u) = some u ↔ _
    rw [hgone, hsame, living_iff.mp hliving]
    simp [eq_comm]
  · have hold : Function.update s.threads (s.tids t) none (s.tids u) = s.threads (s.tids u) :=
      Function.update_of_ne hsame _ _
    change Function.update s.threads (s.tids t) none (s.tids u) = some u ↔ _
    rw [hold]
    refine ⟨fun h => ⟨?_, h⟩, fun h => h.2⟩
    rintro rfl
    exact hsame rfl

end System

namespace Sound

variable {T : Type} [DecidableEq T] {s : System T} {t : T}

theorem start : Sound (System.start : System T) := by
  refine ⟨rfl, ⟨?_, ?_⟩, ?_, ?_, ?_, ?_⟩
  · intro t loop hliving
    cases hliving
  · intro loop object hloop
    cases hloop
  · intro t hliving
    cases hliving
  · intro t hliving
    cases hliving
  · intro loop object hloop
    cases hloop
  · intro loop other object object' hloop
    cases hloop

theorem spawn (h : Sound s) {gettid : Nat} (hdead : s.living t = false) (hpositive : 0 < gettid)
    (hfree : s.threads gettid = none) : Sound (s.spawn t gettid) := by
  have hliving := System.living_spawn hdead hfree
  have howner {loop : Nat} {object : EventLoop T} (hloop : s.loops loop = some object) : object.owner ≠ t := by
    intro howner
    have hlives := h.settled.2 loop object hloop
    rw [howner, hdead] at hlives
    cases hlives
  refine ⟨h.exited, ⟨?_, ?_⟩, ?_, ?_, ?_, h.distinct⟩
  · intro u loop hu
    by_cases hself : u = t
    · subst hself
      have hnone : (s.spawn u gettid).t_loopInThisThread u = none := Function.update_self _ _ _
      rw [hnone]
      refine ⟨nofun, ?_⟩
      rintro ⟨object, hloop, hown⟩
      exact absurd hown (howner hloop)
    · have hold : (s.spawn t gettid).t_loopInThisThread u = s.t_loopInThisThread u := Function.update_of_ne hself _ _
      rw [hold]
      exact h.settled.1 u loop (((hliving u).mp hu).resolve_left hself)
  · intro loop object hloop
    exact (hliving object.owner).mpr (.inr (h.settled.2 loop object hloop))
  · intro u hu
    by_cases hself : u = t
    · subst hself
      have hnew : (s.spawn u gettid).tids u = gettid := Function.update_self _ _ _
      rw [hnew]
      exact hpositive
    · have hold : (s.spawn t gettid).tids u = s.tids u := Function.update_of_ne hself _ _
      rw [hold]
      exact h.tids u (((hliving u).mp hu).resolve_left hself)
  · intro u hu
    by_cases hself : u = t
    · subst hself
      exact .inl ⟨Function.update_self _ _ _, Function.update_self _ _ _⟩
    · simp only [System.spawn, Function.update_of_ne hself]
      exact h.cached u (((hliving u).mp hu).resolve_left hself)
  · intro loop object hloop
    obtain ⟨hid, hopened, hagrees, hfd, hindex, hevents, hexited⟩ := h.watched loop object hloop
    refine ⟨?_, hopened, hagrees, hfd, hindex, hevents, hexited⟩
    rw [hid]
    exact (Function.update_of_ne (howner hloop) _ _).symm

theorem finish (h : Sound s) (hliving : s.living t = true) (hnone : s.t_loopInThisThread t = none) :
    Sound { s with threads := Function.update s.threads (s.tids t) none } := by
  have hlives := System.living_finish hliving
  refine ⟨h.exited, ⟨?_, ?_⟩, ?_, ?_, ?_, h.distinct⟩
  · intro u loop hu
    exact h.settled.1 u loop ((hlives u).mp hu).2
  · intro loop object hloop
    refine (hlives object.owner).mpr ⟨?_, h.settled.2 loop object hloop⟩
    rintro rfl
    have hpointer := (h.settled.1 object.owner loop hliving).mpr ⟨object, hloop, rfl⟩
    rw [hnone] at hpointer
    cases hpointer
  · intro u hu
    exact h.tids u ((hlives u).mp hu).2
  · intro u hu
    exact h.cached u ((hlives u).mp hu).2
  · intro loop object hloop
    obtain ⟨hid, hopened, hagrees, hfd, hindex, hevents, hexited⟩ := h.watched loop object hloop
    exact ⟨hid, hopened, hagrees, hfd, hindex, hevents, hexited⟩

theorem callTid (h : Sound s) (hliving : s.living t = true) : Sound (s.callTid t) := by
  refine ⟨h.exited, h.settled, h.tids, fun u hu => ?_, fun loop object hloop => ?_, h.distinct⟩
  · by_cases hself : u = t
    · subst hself
      have hcached : (s.callTid u).t_cachedTid u = s.tids u :=
        (Function.update_self _ _ _).trans (System.tid_eq h hliving)
      refine .inr ⟨hcached, ?_⟩
      have hcount : (s.callTid u).gettids u = s.gettids u + if s.t_cachedTid u = 0 then 1 else 0 :=
        Function.update_self _ _ _
      have hpositive := h.tids u hliving
      obtain ⟨hnone, hzero⟩ | ⟨hold, hone⟩ := h.cached u hliving
      · rw [hcount, hzero, if_pos hnone]
      · rw [hcount, hone, if_neg (by omega)]
    · simp only [System.callTid, Function.update_of_ne hself]
      exact h.cached u hu
  · obtain ⟨hid, hopened, hagrees, hfd, hindex, hevents, hexited⟩ := h.watched loop object hloop
    exact ⟨hid, hopened, hagrees, hfd, hindex, hevents, hexited⟩

/-- A loop constructed on a thread that has none, with a descriptor that was not in use. -/
theorem construct (h : Sound s) (hliving : s.living t = true) {loop channel fd : Nat}
    (hfree : s.loops loop = none) (hclosed : s.open_ fd = false) (hnone : s.t_loopInThisThread t = none) :
    Sound (s.construct t loop channel (some fd)) := by
  have hcalled := h.callTid hliving
  generalize hs : s.callTid t = called at hcalled
  have hnone' : called.t_loopInThisThread t = none := by
    subst hs
    exact hnone
  have hfree' : called.loops loop = none := by
    subst hs
    exact hfree
  have hclosed' : called.open_ fd = false := by
    subst hs
    exact hclosed
  have hliving' : called.living t = true := by
    subst hs
    exact hliving
  have hnew : Agrees .construct (Channel.construct channel fd) := ⟨rfl, rfl⟩
  obtain ⟨hagrees, hexited, _, hfd, _, _⟩ := perform_spec hnew .enableReading
  have hchannel := perform_snd .construct (Channel.construct channel fd) .enableReading
  have hconstructed : s.construct t loop channel (some fd) =
      { called with
        t_loopInThisThread := Function.update called.t_loopInThisThread t (some loop)
        loops := Function.update called.loops loop (some
          { threadId_ := tid (called.t_cachedTid t) (called.tids t)
            poller_ := ((Channel.construct channel fd).perform .construct .enableReading).1
            wakeupFd_ := fd
            wakeupChannel_ := ((Channel.construct channel fd).perform .construct .enableReading).2
            owner := t })
        open_ := Function.update called.open_ fd true } := by
    have hgoes : ¬ (called.t_loopInThisThread t).isSome = true := by simp [hnone']
    simp only [System.construct, hs, if_neg hgoes]
    rfl
  have hopen {other : Nat} (hopened : called.open_ other = true) :
      other ≠ fd ∧ Function.update called.open_ fd true other = true := by
    have hne : other ≠ fd := by
      rintro rfl
      rw [hclosed'] at hopened
      cases hopened
    rw [Function.update_of_ne hne]
    exact ⟨hne, hopened⟩
  rw [hconstructed]
  refine ⟨hcalled.exited, ⟨?_, ?_⟩, hcalled.tids, hcalled.cached, ?_, ?_⟩
  · intro u other hu
    change Function.update called.t_loopInThisThread t (some loop) u = some other ↔
      ∃ object, Function.update called.loops loop _ other = some object ∧ _
    have hbefore := hcalled.settled.1 u other hu
    by_cases hself : u = t
    · subst hself
      rw [hnone'] at hbefore
      rw [Function.update_self]
      by_cases hother : other = loop
      · subst hother
        rw [Function.update_self]
        exact ⟨fun _ => ⟨_, rfl, rfl⟩, fun _ => rfl⟩
      · rw [Function.update_of_ne hother, ← hbefore]
        simp [Ne.symm hother]
    · rw [Function.update_of_ne hself, hbefore]
      by_cases hother : other = loop
      · subst hother
        rw [Function.update_self, hfree']
        simp [Ne.symm hself]
      · rw [Function.update_of_ne hother]
  · intro other object hother
    obtain ⟨rfl, rfl⟩ | ⟨_, hold⟩ := update_some_iff.mp hother
    · exact hliving'
    · exact hcalled.settled.2 other object hold
  · intro other object hother
    obtain ⟨rfl, rfl⟩ | ⟨_, hold⟩ := update_some_iff.mp hother
    · refine ⟨System.tid_eq hcalled hliving', Function.update_self _ _ _, hagrees, hfd, ?_, ?_, hexited⟩
      · rw [hchannel]
        rfl
      · rw [hchannel]
        exact BitVec.zero_or
    · obtain ⟨hid, hopened, hagrees, hfd, hindex, hevents, hexited⟩ := hcalled.watched other object hold
      exact ⟨hid, (hopen hopened).2, hagrees, hfd, hindex, hevents, hexited⟩
  · intro first second object object' hfirst hsecond hsame
    obtain ⟨rfl, rfl⟩ | ⟨_, hold⟩ := update_some_iff.mp hfirst
    · obtain ⟨rfl, rfl⟩ | ⟨_, hold'⟩ := update_some_iff.mp hsecond
      · rfl
      · exact absurd hsame.symm (hopen (hcalled.watched second object' hold').opened).1
    · obtain ⟨rfl, rfl⟩ | ⟨_, hold'⟩ := update_some_iff.mp hsecond
      · exact absurd hsame (hopen (hcalled.watched first object hold).opened).1
      · exact hcalled.distinct first second object object' hold hold' hsame

/-- The loop's poller is told of another channel. -/
theorem perform (h : Sound s) {loop : Nat} {object : EventLoop T} (hloop : s.loops loop = some object)
    {channel : Channel} (hother : channel.fd_ ≠ object.wakeupFd_) (op : ChannelOp)
    (hexited : (s.perform loop object channel op).exited = false) : Sound (s.perform loop object channel op) := by
  have hback {other : Nat} {found : EventLoop T}
      (hfound : (s.perform loop object channel op).loops other = some found) :
      ∃ before, s.loops other = some before ∧ found.owner = before.owner ∧ found.wakeupFd_ = before.wakeupFd_ ∧
        Watched s found := by
    obtain ⟨rfl, rfl⟩ | ⟨_, hold⟩ := update_some_iff.mp hfound
    · obtain ⟨hid, hopened, hagrees, hfd, hindex, hevents, _⟩ := h.watched other object hloop
      have hne : object.wakeupChannel_.fd_ ≠ channel.fd_ := by
        rw [hfd]
        exact Ne.symm hother
      obtain ⟨hinterest, hchannels⟩ := perform_frame object.poller_ channel op hne
      exact ⟨object, hloop, rfl, rfl, hid, hopened, hagrees.of_entries hinterest hchannels, hfd, hindex, hevents, hexited⟩
    · exact ⟨found, hold, rfl, rfl, h.watched other found hold⟩
  have hforth {other : Nat} {before : EventLoop T} (hbefore : s.loops other = some before) :
      ∃ found, (s.perform loop object channel op).loops other = some found ∧ found.owner = before.owner := by
    by_cases hother : other = loop
    · subst hother
      obtain rfl := Option.some.inj (hloop.symm.trans hbefore)
      exact ⟨_, Function.update_self _ _ _, rfl⟩
    · exact ⟨before, (Function.update_of_ne hother _ _).trans hbefore, rfl⟩
  refine ⟨hexited, ⟨?_, ?_⟩, h.tids, h.cached, ?_, ?_⟩
  · intro u other hu
    refine (h.settled.1 u other hu).trans ⟨?_, ?_⟩
    · rintro ⟨before, hbefore, howner⟩
      obtain ⟨found, hfound, hsame⟩ := hforth hbefore
      exact ⟨found, hfound, hsame.trans howner⟩
    · rintro ⟨found, hfound, howner⟩
      obtain ⟨before, hbefore, hsame, _⟩ := hback hfound
      exact ⟨before, hbefore, hsame.symm.trans howner⟩
  · intro other found hfound
    obtain ⟨before, hbefore, hsame, _⟩ := hback hfound
    have hlives := h.settled.2 other before hbefore
    rw [← hsame] at hlives
    exact hlives
  · intro other found hfound
    obtain ⟨_, _, _, _, hid, hopened, hagrees, hfd, hindex, hevents, hpoller⟩ := hback hfound
    exact ⟨hid, hopened, hagrees, hfd, hindex, hevents, hpoller⟩
  · intro first second found found' hfirst hsecond hsame
    obtain ⟨before, hbefore, _, hfd, _⟩ := hback hfirst
    obtain ⟨before', hbefore', _, hfd', _⟩ := hback hsecond
    exact h.distinct first second before before' hbefore hbefore' (hfd.symm.trans (hsame.trans hfd'))

/-- The destructor leaves a poller that has not failed. -/
theorem exited_destroy (h : Sound s) {loop : Nat} {object : EventLoop T} (hloop : s.loops loop = some object) (t : T) :
    (s.destroy t loop object).exited = false := by
  obtain ⟨_, _, hagrees, _, _, _, hexited⟩ := h.watched loop object hloop
  obtain ⟨hagrees', hexited', _⟩ := perform_spec hagrees .disableAll
  obtain ⟨_, hexited'', _⟩ := perform_spec hagrees' .remove
  exact hexited''.trans (hexited'.trans hexited)

/-- A loop is destroyed on the thread that has constructed it. -/
theorem destroy (h : Sound s) {loop : Nat} {object : EventLoop T} (hloop : s.loops loop = some object)
    (hliving : s.living object.owner = true) : Sound (s.destroy object.owner loop object) := by
  have hpointer := (h.settled.1 object.owner loop hliving).mpr ⟨object, hloop, rfl⟩
  refine ⟨h.exited_destroy hloop object.owner, ⟨?_, ?_⟩, h.tids, h.cached, ?_, ?_⟩
  · intro u other hu
    have hbefore := h.settled.1 u other hu
    change Function.update s.t_loopInThisThread object.owner none u = some other ↔
      ∃ found, Function.update s.loops loop none other = some found ∧ _
    rw [update_none_iff, hbefore]
    constructor
    · rintro ⟨hne, found, hfound, rfl⟩
      refine ⟨found, update_none_iff.mpr ⟨?_, hfound⟩, rfl⟩
      rintro rfl
      obtain rfl := Option.some.inj (hloop.symm.trans hfound)
      exact hne rfl
    · rintro ⟨found, hfound, rfl⟩
      obtain ⟨hne, hold⟩ := update_none_iff.mp hfound
      refine ⟨fun howner => hne ?_, found, hold, rfl⟩
      have hsame := hbefore.mpr ⟨found, hold, rfl⟩
      rw [howner, hpointer] at hsame
      exact (Option.some.inj hsame).symm
  · intro other found hfound
    exact h.settled.2 other found (update_none_iff.mp hfound).2
  · intro other found hfound
    obtain ⟨hne, hold⟩ := update_none_iff.mp hfound
    obtain ⟨hid, hopened, hagrees, hfd, hindex, hevents, hexited⟩ := h.watched other found hold
    refine ⟨hid, ?_, hagrees, hfd, hindex, hevents, hexited⟩
    have hdifferent : found.wakeupFd_ ≠ object.wakeupFd_ := fun hsame =>
      hne (h.distinct other loop found object hold hloop hsame)
    exact (Function.update_of_ne hdifferent _ _).trans hopened
  · intro first second found found' hfirst hsecond hsame
    exact h.distinct first second found found' (update_none_iff.mp hfirst).2 (update_none_iff.mp hsecond).2 hsame

/-- Every step ends the process or, if loops are destroyed at home, keeps the invariant. -/
theorem step {i : Input T} {next : System T} (h : Sound s) (hhome : AtHome s i) (hstep : s.step i = some next) :
    next.exited = true ∨ Sound next := by
  obtain ⟨_, hstep⟩ := Option.ite_none_left_eq_some.mp hstep
  cases i with
  | spawn t gettid =>
    obtain ⟨⟨hdead, hpositive, hfree⟩, rfl⟩ := Option.ite_some_none_eq_some.mp hstep
    exact .inr (h.spawn (by simpa using hdead) hpositive hfree)
  | finish t =>
    obtain ⟨hliving, rfl⟩ := Option.ite_some_none_eq_some.mp hstep
    exact .inr (h.finish hliving hhome)
  | tid t =>
    obtain ⟨hliving, rfl⟩ := Option.ite_some_none_eq_some.mp hstep
    exact .inr (h.callTid hliving)
  | construct t loop channel evtfd =>
    obtain ⟨⟨hliving, hfree, hclosed⟩, rfl⟩ := Option.ite_some_none_eq_some.mp hstep
    cases evtfd with
    | none => exact .inl rfl
    | some fd =>
      by_cases hnone : s.t_loopInThisThread t = none
      · exact .inr (h.construct hliving hfree (by simpa using hclosed) hnone)
      · left
        have hsome : ((s.callTid t).t_loopInThisThread t).isSome = true := Option.isSome_iff_ne_none.mpr hnone
        simp only [System.construct, if_pos hsome]
  | perform loop channel op =>
    obtain ⟨object, hloop, hperform⟩ := Option.bind_eq_some_iff.mp hstep
    obtain ⟨hother, heq⟩ := Option.ite_none_left_eq_some.mp hperform
    obtain rfl := Option.some.inj heq
    cases hexited : (s.perform loop object channel op).exited with
    | true => exact .inl rfl
    | false => exact .inr (h.perform hloop hother op hexited)
  | destroy t loop =>
    obtain ⟨hliving, hdestroy⟩ := Option.ite_none_right_eq_some.mp hstep
    obtain ⟨object, hloop, rfl⟩ := Option.map_eq_some_iff.mp hdestroy
    obtain rfl : object.owner = t := by
      have hall : (s.loops loop).all (fun object => object.owner == t) = true := hhome
      simpa [hloop] using hall
    exact .inr (h.destroy hloop hliving)

/-- A loop that is destroyed elsewhere leaves the pointer of its thread dangling, and a
thread that ends leaves its loop behind. -/
theorem step_away {i : Input T} {next : System T} (h : Sound s) (haway : ¬ AtHome s i)
    (hstep : s.step i = some next) : ¬ (next.exited = true ∨ Settled next) := by
  obtain ⟨_, hstep⟩ := Option.ite_none_left_eq_some.mp hstep
  cases i with
  | finish t =>
    obtain ⟨hliving, rfl⟩ := Option.ite_some_none_eq_some.mp hstep
    obtain ⟨loop, hpointer⟩ := Option.ne_none_iff_exists'.mp haway
    obtain ⟨object, hloop, rfl⟩ := (h.settled.1 t loop hliving).mp hpointer
    rintro (hexited | ⟨_, howners⟩)
    · rw [h.exited] at hexited
      cases hexited
    · exact absurd rfl ((System.living_finish hliving object.owner).mp (howners loop object hloop)).1
  | destroy t loop =>
    obtain ⟨hliving, hdestroy⟩ := Option.ite_none_right_eq_some.mp hstep
    obtain ⟨object, hloop, rfl⟩ := Option.map_eq_some_iff.mp hdestroy
    have howner : object.owner ≠ t := by
      rintro rfl
      exact haway (by simp [AtHome, hloop])
    have hlives := h.settled.2 loop object hloop
    have hpointer := (h.settled.1 object.owner loop hlives).mpr ⟨object, hloop, rfl⟩
    rintro (hexited | ⟨hpointers, _⟩)
    · rw [h.exited_destroy hloop t] at hexited
      cases hexited
    · have hkept : (s.destroy t loop object).t_loopInThisThread object.owner = some loop :=
        (Function.update_of_ne howner _ _).trans hpointer
      obtain ⟨found, hfound, _⟩ := (hpointers object.owner loop hlives).mp hkept
      exact (update_none_iff.mp hfound).1 rfl
  | spawn t gettid => exact absurd trivial haway
  | tid t => exact absurd trivial haway
  | construct t loop channel evtfd => exact absurd trivial haway
  | perform loop channel op => exact absurd trivial haway

end Sound

/-- A process that has ended makes no step. -/
theorem step_exited {T : Type} [DecidableEq T] {s : System T} (h : s.exited = true) (i : Input T) : s.step i = none :=
  if_pos h

/-- The thread-local pointers keep to the loops exactly if loops stay at home. In a run of
threads that construct and destroy loops, the pointer of each living thread is to the loop
that it has constructed and not destroyed, and no loop outlives its thread, in every state
until the process ends, if and only if every loop is destroyed by its own thread and
before that ends; the destructor clears the pointer of the thread that it runs on. -/
theorem pointers_settled_iff {T : Type} [DecidableEq T] {inputs : List (Input T)} {s : System T}
    (hrun : (lifetimes T).run .start inputs = some s) :
    (∀ done t, done <+: inputs → (lifetimes T).run .start done = some t → t.exited = true ∨ Settled t) ↔
      (lifetimes T).Along (fun s i => s.exited = true ∨ AtHome s i) .start inputs := by
  refine Machine.along_iff_forall_prefix (fun _ => True) (fun s => s.exited = true ∨ Sound s)
    (fun s => s.exited = true ∨ Settled s) (fun s h => h.imp id Sound.settled) ?_ ?_ (fun _ _ => trivial)
    (.inr Sound.start) hrun
  · rintro s i t (hexited | h) _ hhome hstep
    · rw [show (lifetimes T).step s i = none from step_exited hexited i] at hstep
      cases hstep
    · obtain hexited | hhome := hhome
      · rw [h.exited] at hexited
        cases hexited
      · exact h.step hhome hstep
  · rintro s i t (hexited | h) _ haway hstep
    · exact absurd (.inl hexited) haway
    · exact h.step_away (fun hhome => haway (.inr hhome)) hstep

/-- One loop per thread. In every run in which loops stay at home, however many threads and
loops come and go and whichever thread ids are given out again, as long as the process goes
on no thread has two loops, `isInLoopThread` answers true exactly on the thread of the loop,
no thread has asked the kernel for its id more than once, and from its constructor to its
destructor a loop has its own `eventfd` open and watched for reading. -/
theorem one_loop_per_thread {T : Type} [DecidableEq T] {s : System T}
    (hrun : (lifetimes T).Steps AtHome .start s) (hgoes : s.exited = false) :
    (∀ loop other object object', s.loops loop = some object → s.loops other = some object' →
      object.owner = object'.owner ∨ object.wakeupFd_ = object'.wakeupFd_ → loop = other) ∧
    (∀ t loop object, s.living t = true → s.loops loop = some object →
      (s.isInLoopThread t object = true ↔ object.owner = t)) ∧
    (∀ t, s.living t = true → s.gettids t ≤ 1) ∧
    ∀ loop object, s.loops loop = some object → s.open_ object.wakeupFd_ = true ∧
      object.poller_.interest object.wakeupFd_ = some { events := kReadEvent, ptr := object.wakeupChannel_.addr } := by
  have hinvariant : s.exited = true ∨ Sound s := by
    refine hrun.invariant (P := fun s => s.exited = true ∨ Sound s) ?_ (.inr Sound.start)
    rintro s i t (hexited | h) hhome hstep
    · rw [show (lifetimes T).step s i = none from step_exited hexited i] at hstep
      cases hstep
    · exact h.step hhome hstep
  have h : Sound s := hinvariant.resolve_left (by simp [hgoes])
  refine ⟨?_, ?_, ?_, ?_⟩
  · rintro loop other object object' hloop hother (howner | hfd)
    · have hlives := h.settled.2 loop object hloop
      have hpointer := (h.settled.1 object.owner loop hlives).mpr ⟨object, hloop, rfl⟩
      have hpointer' := (h.settled.1 object.owner other hlives).mpr ⟨object', hother, howner.symm⟩
      exact Option.some.inj (hpointer.symm.trans hpointer')
    · exact h.distinct loop other object object' hloop hother hfd
  · intro t loop object hliving hloop
    have hid := (h.watched loop object hloop).threadId_
    rw [System.isInLoopThread, System.tid_eq h hliving, hid, beq_iff_eq]
    constructor
    · intro hsame
      exact System.tids_injective (h.settled.2 loop object hloop) hliving hsame
    · rintro rfl
      rfl
  · intro t hliving
    obtain ⟨_, hzero⟩ | ⟨_, hone⟩ := h.cached t hliving
    · omega
    · omega
  · intro loop object hloop
    obtain ⟨_, hopened, hagrees, hfd, hindex, hevents, _⟩ := h.watched loop object hloop
    refine ⟨hopened, ?_⟩
    have hentry := hagrees.interest_eq
    rw [if_pos hindex, hfd, hevents] at hentry
    exact hentry

/-- Two threads with a loop each; one goes, and a new thread gets its id. -/
def comeAndGo : List (Input Nat) :=
  [.spawn 0 11, .construct 0 100 101 (some 5), .spawn 1 12, .tid 1, .construct 1 200 201 (some 6),
    .perform 200 (.construct 202 7) .enableReading, .destroy 1 200, .finish 1, .spawn 2 12, .tid 2]

theorem pointers_settled_iff_comeAndGo :
    ∃ s, (lifetimes Nat).run .start comeAndGo = some s ∧
      ∀ done t, done <+: comeAndGo → (lifetimes Nat).run .start done = some t → t.exited = true ∨ Settled t := by
  have hruns : ((lifetimes Nat).run .start comeAndGo).isSome = true := by decide +kernel
  obtain ⟨s, hrun⟩ := Option.isSome_iff_exists.mp hruns
  exact ⟨s, hrun, (pointers_settled_iff hrun).mpr (by decide +kernel)⟩

theorem one_loop_per_thread_comeAndGo :
    ∃ s object, (lifetimes Nat).run .start comeAndGo = some s ∧ s.loops 100 = some object ∧
      s.living 2 = true ∧ (s.isInLoopThread 2 object = true ↔ object.owner = 2) ∧ s.gettids 2 ≤ 1 := by
  have hruns : (((lifetimes Nat).run .start comeAndGo).map
      fun s => (s.exited, s.living 2, (s.loops 100).isSome)) = some (false, true, true) := by decide +kernel
  obtain ⟨s, hrun, heq⟩ := Option.map_eq_some_iff.mp hruns
  obtain ⟨hexited, hrest⟩ := Prod.mk.inj heq
  obtain ⟨hliving, hsome⟩ := Prod.mk.inj hrest
  obtain ⟨object, hloop⟩ := Option.isSome_iff_exists.mp hsome
  obtain ⟨_, hthread, hasked, _⟩ :=
    one_loop_per_thread (Machine.steps_of_run hrun (by decide +kernel)) hexited
  exact ⟨s, object, hrun, hloop, hliving, hthread 2 100 object hliving hloop, hasked 2 hliving⟩

end muduo.event_loop_lifetime
