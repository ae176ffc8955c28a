import Muduo.InetAddress
import Muduo.Library.Table
import Muduo.Poller.Wait

open table transition
open muduo.epoll
open muduo.inet_address (InetAddress)

namespace muduo.acceptor

/-- Why `accept4` fails: there is no connection, the process may not have another
descriptor, the socket does not listen, or something else. -/
inductive Errno where
  | EAGAIN
  | EMFILE
  | EINVAL
  | other
  deriving DecidableEq

/-- The kernel's side of a TCP socket that connections are accepted on. `queue` are the
peers of the connections that are established and not accepted. -/
structure ListenSocket where
  bound : Option InetAddress
  listening : Bool
  queue : List InetAddress

namespace ListenSocket

def socket : ListenSocket where
  bound := none
  listening := false
  queue := []

/-- The length that `Socket::listen` gives the queue. -/
def backlog : Nat := 1024

/-- What `epoll` finds on the socket. One that does not listen is hung up. -/
def readiness (self : ListenSocket) : Mask :=
  if self.listening then (if self.queue = [] then 0 else EPOLLIN) else EPOLLHUP ||| EPOLLOUT

end ListenSocket

structure Acceptor where
  acceptSocket_ : Nat
  acceptChannel_ : Channel
  NewConnectionCallback_ : Bool
  listenning_ : Bool

/-- For whom a descriptor is open. -/
inductive Owner where
  | listener
  | connection
  | other
  deriving DecidableEq

/-- What became of an established connection: `NewConnectionCallback_` was given its
descriptor, its descriptor was closed at once, or its peer was reset with the socket. -/
inductive Outcome where
  | handed (connfd : Nat)
  | closed (connfd : Nat)
  | reset
  deriving DecidableEq

/-- An acceptor, if there is one, on its loop. `reported` says that its channel is in the
`activeChannels_` of the pass under way. `arrived` and `outcomes` record the connections
that have been established and what became of them, and `closes` counts how often the
owner of a connection has closed a descriptor. -/
structure System where
  acceptor_ : Option Acceptor
  socket : ListenSocket
  poller : EPollPoller
  open_ : Nat → Option Owner
  reported : Bool
  exited : Bool
  arrived : List InetAddress
  outcomes : List (InetAddress × Outcome)
  closes : Nat → Nat

/-- A step: of the code of the acceptor on its loop, with the answers of the system calls
that it makes, of the kernel, of another channel of the loop, or of other descriptors.
A call of `poll` leaves the acceptor's channel out if a signal interrupts it, or if other
channels fill its array. -/
inductive Input where
  | construct (channel : Nat) (sockfd : Option Nat) (listenAddr : InetAddress) (binds : Bool)
  | setNewConnectionCallback
  | listen (listens : Bool)
  | arrive (peer : InetAddress)
  | poll (leftOut : Bool)
  | handleEvent (accepted : Except Errno Nat)
  | perform (channel : Channel) (op : ChannelOp)
  | openOther (fd : Nat)
  | close (fd : Nat)
  | destroy

namespace System

def start : System where
  acceptor_ := none
  socket := .socket
  poller := .construct
  open_ := fun _ => none
  reported := false
  exited := false
  arrived := []
  outcomes := []
  closes := fun _ => 0

/-- The constructor, with the answers of `socket` and `bind`. -/
def construct (s : System) (channel : Nat) (sockfd : Option Nat) (listenAddr : InetAddress) (binds : Bool) : System :=
  match sockfd with
  | none => { s with exited := true }
  | some sockfd =>
    if binds then
      { s with
        acceptor_ := some
          { acceptSocket_ := sockfd
            acceptChannel_ := .construct channel sockfd
            NewConnectionCallback_ := false
            listenning_ := false }
        socket := { ListenSocket.socket with bound := some listenAddr }
        open_ := Function.update s.open_ sockfd (some .listener) }
    else { s with exited := true }

/-- `Acceptor::listen`, with the answer of `listen`. -/
def listen (s : System) (self : Acceptor) (listens : Bool) : System :=
  if listens then
    let (poller, acceptChannel_) := self.acceptChannel_.enableReading s.poller
    { s with
      acceptor_ := some { self with acceptChannel_, listenning_ := true }
      socket := { s.socket with listening := true }
      poller
      exited := poller.exited }
  else { s with exited := true }

/-- Whether the process has as many descriptors as it may have. -/
def full (limit : Nat) (s : System) : Bool := (List.range limit).all fun fd => (s.open_ fd).isSome

/-- `accept4`. The descriptor that it answers with was not open, and the limit on
descriptors is tested before the queue. -/
def accept4 (limit : Nat) (s : System) : Except Errno Nat → Option (Option (Nat × InetAddress) × System)
  | .ok connfd => match s.socket.queue with
    | [] => none
    | peer :: queue =>
      if s.socket.listening = true ∧ connfd < limit ∧ s.open_ connfd = none then
        some (some (connfd, peer), { s with
          socket := { s.socket with queue }
          open_ := Function.update s.open_ connfd (some .connection) })
      else none
  | .error .EMFILE => if s.full limit = true then some (none, s) else none
  | .error .EINVAL => if s.socket.listening = true then none else some (none, s)
  | .error .EAGAIN => if s.socket.listening = true ∧ s.socket.queue = [] then some (none, s) else none
  | .error .other => some (none, s)

/-- `Acceptor::handleRead`, with the answer of `accept4`. -/
def handleRead (limit : Nat) (s : System) (self : Acceptor) (accepted : Except Errno Nat) : Option System :=
  (s.accept4 limit accepted).map fun
    | (some (connfd, peerAddr), s) =>
      if self.NewConnectionCallback_ then { s with outcomes := s.outcomes ++ [(peerAddr, .handed connfd)] }
      else
        { s with
          open_ := Function.update s.open_ connfd none
          outcomes := s.outcomes ++ [(peerAddr, .closed connfd)] }
    | (none, s) => s

/-- The mask that the kernel reports on the descriptor of a channel, to that channel. -/
def report (s : System) (channel : Channel) : Mask :=
  match s.poller.interest channel.fd_ with
  | some event => if event.ptr = channel.addr then (event.report s.socket.readiness).events else 0
  | none => 0

/-- A call of `poll`, as far as the acceptor's channel is concerned. -/
def poll (s : System) (self : Acceptor) (leftOut : Bool) : System :=
  if leftOut = true ∨ s.report self.acceptChannel_ = 0 then s
  else
    { s with
      acceptor_ := some { self with acceptChannel_ := self.acceptChannel_.set_revents (s.report self.acceptChannel_) }
      reported := true }

/-- The dispatch of the acceptor's channel, of whose callbacks only the one for reading is set. -/
def handleEvent (limit : Nat) (s : System) (self : Acceptor) (accepted : Except Errno Nat) : Option System :=
  let s := { s with reported := false }
  if .readCallback_ ∈ self.acceptChannel_.handleEventWithGuard then s.handleRead limit self accepted else some s

/-- The destructor. Closing the socket resets the connections that it has in its queue. -/
def destroy (s : System) (self : Acceptor) : System :=
  let (poller, acceptChannel_) := self.acceptChannel_.disableAll s.poller
  let (poller, _) := acceptChannel_.remove poller
  { s with
    acceptor_ := none
    socket := .socket
    poller
    open_ := Function.update s.open_ self.acceptSocket_ none
    exited := poller.exited
    outcomes := s.outcomes ++ s.socket.queue.map fun peer => (peer, .reset) }

/-- Between two calls of `poll` come the dispatches. Another channel of the loop has
another descriptor than the acceptor's. -/
def step (limit : Nat) (s : System) (i : Input) : Option System :=
  if s.exited then none
  else match i with
  | .construct channel sockfd listenAddr binds =>
    if s.acceptor_.isNone = true ∧ sockfd.all (fun fd => (s.open_ fd).isNone && (s.poller.interest fd).isNone &&
        (s.poller.channels_ fd).isNone) = true then
      some (s.construct channel sockfd listenAddr binds)
    else none
  | .setNewConnectionCallback =>
    s.acceptor_.map fun self => { s with acceptor_ := some { self with NewConnectionCallback_ := true } }
  | .listen listens => s.acceptor_.map fun self => s.listen self listens
  | .arrive peer =>
    if s.socket.listening = true ∧ s.socket.queue.length ≤ ListenSocket.backlog then
      some { s with
        socket := { s.socket with queue := s.socket.queue ++ [peer] }
        arrived := s.arrived ++ [peer] }
    else none
  | .poll leftOut => if s.reported then none else s.acceptor_.map fun self => s.poll self leftOut
  | .handleEvent accepted =>
    if s.reported then s.acceptor_.bind fun self => s.handleEvent limit self accepted else none
  | .perform channel op =>
    if s.acceptor_.all (fun self => self.acceptSocket_ != channel.fd_) = true then
      some { s with
        poller := (channel.perform s.poller op).1
        exited := (channel.perform s.poller op).1.exited }
    else none
  | .openOther fd =>
    if s.open_ fd = none then some { s with open_ := Function.update s.open_ fd (some .other) } else none
  | .close fd => match s.open_ fd with
    | some .connection =>
      some { s with
        open_ := Function.update s.open_ fd none
        closes := Function.update s.closes fd (s.closes fd + 1) }
    | some .other => some { s with open_ := Function.update s.open_ fd none }
    | _ => none
  | .destroy => if s.reported then none else s.acceptor_.map s.destroy

end System

/-- An acceptor on its loop, in a process with at most `limit` descriptors. -/
def accepting (limit : Nat) : Machine System Input where
  step := System.step limit

namespace System

/-- The state after `accept4` has taken the first peer of the queue. -/
def served (s : System) (self : Acceptor) (connfd : Nat) (peer : InetAddress) (queue : List InetAddress) : System :=
  { s with
    socket := { s.socket with queue }
    open_ := Function.update s.open_ connfd (if self.NewConnectionCallback_ then some .connection else none)
    outcomes := s.outcomes ++ [(peer, if self.NewConnectionCallback_ then .handed connfd else .closed connfd)] }

/-- The ways to take a turn of `handleRead`: the first peer is served, or nothing changes. -/
inductive Reads (limit : Nat) (s : System) (self : Acceptor) : Except Errno Nat → System → Prop where
  | served {connfd : Nat} {peer : InetAddress} {queue : List InetAddress} (hqueue : s.socket.queue = peer :: queue)
      (hlistening : s.socket.listening = true) (hclosed : s.open_ connfd = none) :
      Reads limit s self (.ok connfd) (s.served self connfd peer queue)
  | failed {e : Errno} (hagain : e = .EAGAIN → s.socket.queue = []) (hinval : e = .EINVAL → s.socket.listening = false)
      (hfull : e = .EMFILE → s.full limit = true) : Reads limit s self (.error e) s

theorem reads_of_handleRead {limit : Nat} {s t : System} {self : Acceptor} {accepted : Except Errno Nat}
    (hread : s.handleRead limit self accepted = some t) : Reads limit s self accepted t := by
  obtain ⟨⟨peerAddr, next⟩, haccept, rfl⟩ := Option.map_eq_some_iff.mp hread
  cases accepted with
  | ok connfd =>
    cases hqueue : s.socket.queue with
    | nil => simp [accept4, hqueue] at haccept
    | cons peer queue =>
      simp only [accept4, hqueue] at haccept
      obtain ⟨⟨hlistening, _, hclosed⟩, heq⟩ := Option.ite_some_none_eq_some.mp haccept
      cases heq
      have hserved : Reads limit s self (.ok connfd) _ := .served hqueue hlistening hclosed
      cases hcallback : self.NewConnectionCallback_ with
      | true => simpa [System.served, hcallback] using hserved
      | false => simpa [System.served, hcallback] using hserved
  | error e =>
    cases e with
    | EAGAIN =>
      obtain ⟨⟨_, hempty⟩, heq⟩ := Option.ite_some_none_eq_some.mp haccept
      cases heq
      exact .failed (fun _ => hempty) nofun nofun
    | EMFILE =>
      obtain ⟨hfull, heq⟩ := Option.ite_some_none_eq_some.mp haccept
      cases heq
      exact .failed nofun nofun fun _ => hfull
    | EINVAL =>
      obtain ⟨hnot, heq⟩ := Option.ite_none_left_eq_some.mp haccept
      cases heq
      exact .failed nofun (fun _ => by simpa using hnot) nofun
    | other =>
      cases haccept
      exact .failed nofun nofun nofun

end System

/-- What holds of an acceptor. Its socket is open and listens when it says so, and then its
channel is watched for reading, and it is in a pass only for a peer that waits. -/
structure Serves (s : System) (object : Acceptor) : Prop where
  opened : s.open_ object.acceptSocket_ = some .listener
  fd_ : object.acceptChannel_.fd_ = object.acceptSocket_
  agrees : Agrees s.poller object.acceptChannel_
  listening : s.socket.listening = object.listenning_
  index_ : object.acceptChannel_.index_ = if object.listenning_ then .kAdded else .kNew
  events_ : object.acceptChannel_.events_ = if object.listenning_ then kReadEvent else kNoneEvent
  reported : s.reported = true → s.socket.queue ≠ [] ∧ object.acceptChannel_.revents_ = EPOLLIN

/-- The invariant of an acceptor and its socket. -/
structure Sound (s : System) : Prop where
  exited : s.exited = false
  poller : s.poller.exited = false
  serves : ∀ self, s.acceptor_ = some self → Serves s self
  gone : s.acceptor_ = none → s.socket = .socket ∧ s.reported = false
  silent : s.socket.listening = false → s.socket.queue = []
  room : s.socket.queue.length ≤ ListenSocket.backlog + 1
  arrived : s.arrived = s.outcomes.map Prod.fst ++ s.socket.queue
  owner : ∀ fd, s.open_ fd = some .listener → ∃ self, s.acceptor_ = some self ∧ self.acceptSocket_ = fd
  handed : ∀ fd, s.outcomes.countP (fun outcome => outcome.2 == .handed fd) =
    s.closes fd + if s.open_ fd = some .connection then 1 else 0

namespace Serves

variable {s : System} {self : Acceptor}

/-- The kernel has something to report exactly when a peer waits. -/
theorem report_eq (h : Serves s self) : s.report self.acceptChannel_ =
    if self.listenning_ = true ∧ s.socket.queue ≠ [] then EPOLLIN else 0 := by
  have hentry := h.agrees.interest_eq
  rw [h.index_, h.events_] at hentry
  cases hlistening : self.listenning_ with
  | false =>
    simp only [hlistening] at hentry
    simp [System.report, hentry]
  | true =>
    have hlistens := h.listening
    rw [hlistening] at hlistens
    simp only [hlistening, if_true] at hentry
    have hread : EPOLLIN &&& (kReadEvent ||| (EPOLLERR ||| EPOLLHUP)) = EPOLLIN := by decide
    cases hqueue : s.socket.queue with
    | nil => simp [System.report, hentry, EpollEvent.report, ListenSocket.readiness, hlistens, hqueue]
    | cons peer queue => simp [System.report, hentry, EpollEvent.report, ListenSocket.readiness, hlistens, hqueue, hread]

/-- What is not of the acceptor does not concern it. -/
theorem of_same {t : System} (h : Serves s self) (hopen : t.open_ self.acceptSocket_ = s.open_ self.acceptSocket_)
    (hpoller : t.poller = s.poller) (hlistening : t.socket.listening = s.socket.listening)
    (hreported : t.reported = true → s.reported = true ∧ (s.socket.queue ≠ [] → t.socket.queue ≠ [])) :
    Serves t self := by
  obtain ⟨hopened, hfd, hagrees, hlistens, hindex, hevents, hactive⟩ := h
  refine ⟨hopen.trans hopened, hfd, ?_, hlistening.trans hlistens, hindex, hevents, fun htold => ?_⟩
  · rw [hpoller]
    exact hagrees
  · obtain ⟨hbefore, hkept⟩ := hreported htold
    exact ⟨hkept (hactive hbefore).1, (hactive hbefore).2⟩

end Serves

namespace Sound

variable {limit : Nat} {s : System} {self : Acceptor}

theorem start : Sound .start := by
  refine ⟨rfl, rfl, nofun, fun _ => ⟨rfl, rfl⟩, fun _ => rfl, Nat.zero_le _, rfl, nofun, fun fd => ?_⟩
  rfl

/-- Descriptors that are no connection's, before and after, do not count. -/
theorem handed_update (h : Sound s) {fd : Nat} {owner : Option Owner} (hbefore : s.open_ fd ≠ some .connection)
    (hafter : owner ≠ some .connection) (connfd : Nat) :
    s.outcomes.countP (fun outcome => outcome.2 == .handed connfd) =
      s.closes connfd + if Function.update s.open_ fd owner connfd = some .connection then 1 else 0 := by
  rw [h.handed connfd]
  by_cases hsame : connfd = fd
  · subst hsame
    rw [Function.update_self, if_neg hbefore, if_neg hafter]
  · rw [Function.update_of_ne hsame]

/-- A descriptor that is not the acceptor's is opened or closed. -/
theorem owner_update (h : Sound s) {fd : Nat} {owner : Option Owner} (howner : owner ≠ some .listener) {other : Nat}
    (hopen : Function.update s.open_ fd owner other = some .listener) :
    ∃ self, s.acceptor_ = some self ∧ self.acceptSocket_ = other := by
  by_cases hsame : other = fd
  · subst hsame
    rw [Function.update_self] at hopen
    exact absurd hopen howner
  · rw [Function.update_of_ne hsame] at hopen
    exact h.owner other hopen

theorem serves_update (h : Sound s) (hself : s.acceptor_ = some self) {fd : Nat} {owner : Option Owner}
    (hother : s.open_ fd ≠ some .listener) :
    Function.update s.open_ fd owner self.acceptSocket_ = s.open_ self.acceptSocket_ := by
  apply Function.update_of_ne
  rintro rfl
  exact hother (h.serves self hself).opened

theorem construct (h : Sound s) (hgone : s.acceptor_ = none) (channel : Nat) {fd : Nat} (hclosed : s.open_ fd = none)
    (hinterest : s.poller.interest fd = none) (hchannels : s.poller.channels_ fd = none) (listenAddr : InetAddress) :
    Sound (s.construct channel (some fd) listenAddr true) := by
  obtain ⟨hsocket, hreported⟩ := h.gone hgone
  have harrived := h.arrived
  rw [hsocket] at harrived
  refine ⟨h.exited, h.poller, ?_, nofun, fun _ => rfl, Nat.zero_le _, harrived, ?_, ?_⟩
  · rintro self hself
    obtain rfl := Option.some.inj hself
    refine ⟨Function.update_self _ _ _, rfl, ⟨hinterest, hchannels⟩, rfl, rfl, rfl, fun htold => ?_⟩
    rw [show s.reported = true from htold] at hreported
    cases hreported
  · intro other hother
    by_cases hsame : other = fd
    · subst hsame
      exact ⟨_, rfl, rfl⟩
    · have hold : s.open_ other = some .listener := (Function.update_of_ne hsame _ _).symm.trans hother
      obtain ⟨self, hself, _⟩ := h.owner other hold
      rw [hgone] at hself
      cases hself
  · exact h.handed_update (by rw [hclosed]; nofun) nofun

theorem setNewConnectionCallback (h : Sound s) (hself : s.acceptor_ = some self) :
    Sound { s with acceptor_ := some { self with NewConnectionCallback_ := true } } := by
  refine ⟨h.exited, h.poller, fun object hobject => ?_, nofun, h.silent, h.room, h.arrived, fun fd hopen => ?_, h.handed⟩
  · obtain rfl := Option.some.inj hobject
    obtain ⟨hopened, hfd, hagrees, hlistening, hindex, hevents, hreported⟩ := h.serves self hself
    exact ⟨hopened, hfd, hagrees, hlistening, hindex, hevents, hreported⟩
  · obtain ⟨object, hobject, hsocket⟩ := h.owner fd hopen
    obtain rfl := Option.some.inj (hself.symm.trans hobject)
    exact ⟨_, rfl, hsocket⟩

theorem listen (h : Sound s) (hself : s.acceptor_ = some self) : Sound (s.listen self true) := by
  have hserves := h.serves self hself
  obtain ⟨hagrees, hexited, _, hfd, _, _⟩ := perform_spec hserves.agrees .enableReading
  have hchannel := perform_snd s.poller self.acceptChannel_ .enableReading
  have hpoller : (self.acceptChannel_.perform s.poller .enableReading).1.exited = false := hexited.trans h.poller
  refine ⟨hpoller, hpoller, ?_, nofun, nofun, h.room, h.arrived, ?_, h.handed⟩
  · rintro object hobject
    obtain rfl := Option.some.inj hobject
    refine ⟨hserves.opened, hfd.trans hserves.fd_, hagrees, rfl, ?_, ?_, fun htold => ?_⟩
    · change (self.acceptChannel_.perform s.poller .enableReading).2.index_ = .kAdded
      rw [hchannel]
      change nextIndex self.acceptChannel_.index_ (self.acceptChannel_.events_ ||| kReadEvent) = .kAdded
      have hnonempty : self.acceptChannel_.events_ ||| kReadEvent ≠ kNoneEvent :=
        ne_kNoneEvent_of_meets (mask_enableReading_meets _)
      exact if_neg fun hnone => hnonempty hnone.2
    · change (self.acceptChannel_.perform s.poller .enableReading).2.events_ = kReadEvent
      rw [hchannel]
      change self.acceptChannel_.events_ ||| kReadEvent = kReadEvent
      rw [hserves.events_]
      cases self.listenning_ with
      | true => decide
      | false => decide
    · obtain ⟨hqueue, hrevents⟩ := hserves.reported htold
      refine ⟨hqueue, ?_⟩
      change (self.acceptChannel_.perform s.poller .enableReading).2.revents_ = EPOLLIN
      rw [hchannel]
      exact hrevents
  · intro other hother
    obtain ⟨object, hobject, hsocket⟩ := h.owner other hother
    obtain rfl := Option.some.inj (hself.symm.trans hobject)
    exact ⟨_, rfl, hsocket⟩

/-- A peer comes. -/
theorem arrive (h : Sound s) (peer : InetAddress) (hlistening : s.socket.listening = true)
    (hroom : s.socket.queue.length ≤ ListenSocket.backlog) :
    Sound { s with
      socket := { s.socket with queue := s.socket.queue ++ [peer] }
      arrived := s.arrived ++ [peer] } := by
  refine ⟨h.exited, h.poller, fun object hobject => ?_, fun hgone => ?_, fun hsilent => ?_, ?_, ?_, h.owner, h.handed⟩
  · refine (h.serves object hobject).of_same rfl rfl rfl fun htold => ⟨htold, fun _ => ?_⟩
    exact List.append_ne_nil_of_right_ne_nil _ (List.cons_ne_nil _ _)
  · obtain ⟨hsocket, _⟩ := h.gone hgone
    rw [hsocket] at hlistening
    cases hlistening
  · rw [show s.socket.listening = false from hsilent] at hlistening
    cases hlistening
  · simp only [List.length_append, List.length_singleton]
    omega
  · simp only [h.arrived, List.append_assoc]

theorem poll (h : Sound s) (hself : s.acceptor_ = some self) (leftOut : Bool) : Sound (s.poll self leftOut) := by
  have hserves := h.serves self hself
  have hreport := hserves.report_eq
  unfold System.poll
  split
  · exact h
  · next hsome =>
    have hwaits : self.listenning_ = true ∧ s.socket.queue ≠ [] := by
      by_contra hnone
      rw [if_neg hnone] at hreport
      exact hsome (.inr hreport)
    rw [if_pos hwaits] at hreport
    refine ⟨h.exited, h.poller, ?_, nofun, h.silent, h.room, h.arrived, ?_, h.handed⟩
    · rintro object hobject
      obtain rfl := Option.some.inj hobject
      obtain ⟨hopened, hfd, ⟨hinterest, hchannels⟩, hlistening, hindex, hevents, _⟩ := hserves
      exact ⟨hopened, hfd, ⟨hinterest, hchannels⟩, hlistening, hindex, hevents, fun _ => ⟨hwaits.2, hreport⟩⟩
    · intro other hother
      obtain ⟨object, hobject, hsocket⟩ := h.owner other hother
      obtain rfl := Option.some.inj (hself.symm.trans hobject)
      exact ⟨_, rfl, hsocket⟩

/-- The first peer is served. -/
theorem served (h : Sound s) (hself : s.acceptor_ = some self) {connfd : Nat} {peer : InetAddress}
    {queue : List InetAddress} (hqueue : s.socket.queue = peer :: queue) (hlistening : s.socket.listening = true)
    (hclosed : s.open_ connfd = none) (hidle : s.reported = false) : Sound (s.served self connfd peer queue) := by
  have hother : s.open_ connfd ≠ some .listener := by
    rw [hclosed]
    nofun
  refine ⟨h.exited, h.poller, fun object hobject => ?_, fun hgone => ?_, fun hsilent => ?_, ?_, ?_, ?_, fun fd => ?_⟩
  · refine (h.serves object hobject).of_same (h.serves_update hobject hother) rfl rfl fun htold => ?_
    rw [show s.reported = true from htold] at hidle
    cases hidle
  · rw [show s.acceptor_ = none from hgone] at hself
    cases hself
  · rw [show s.socket.listening = false from hsilent] at hlistening
    cases hlistening
  · have hroom := h.room
    rw [hqueue, List.length_cons] at hroom
    exact Nat.le_of_succ_le hroom
  · change s.arrived = (s.outcomes ++ [_]).map Prod.fst ++ queue
    rw [h.arrived, hqueue, List.map_append, List.append_assoc]
    rfl
  · intro other hopen
    refine h.owner_update ?_ hopen
    split <;> nofun
  · change (s.outcomes ++ [_]).countP _ = s.closes fd + if Function.update s.open_ connfd _ fd = some .connection then 1 else 0
    rw [List.countP_append, h.handed fd]
    by_cases hsame : fd = connfd
    · subst hsame
      rw [Function.update_self, hclosed]
      cases self.NewConnectionCallback_ with
      | true => simp
      | false => simp
    · rw [Function.update_of_ne hsame]
      cases self.NewConnectionCallback_ with
      | true => simp [Ne.symm hsame]
      | false => simp

/-- The dispatch of the acceptor's channel is a turn of `handleRead`. -/
theorem reads (h : Sound s) (hself : s.acceptor_ = some self) (hreported : s.reported = true)
    {accepted : Except Errno Nat} {t : System} (hevent : s.handleEvent limit self accepted = some t) :
    System.Reads limit { s with reported := false } self accepted t := by
  obtain ⟨_, hrevents⟩ := (h.serves self hself).reported hreported
  have hread : .readCallback_ ∈ self.acceptChannel_.handleEventWithGuard := by
    rw [Channel.readCallback_mem_iff, hrevents]
    decide
  unfold System.handleEvent at hevent
  simp only [if_pos hread] at hevent
  exact System.reads_of_handleRead hevent

theorem idle (h : Sound s) : Sound { s with reported := false } := by
  refine ⟨h.exited, h.poller, fun object hobject => ?_, fun hgone => ⟨(h.gone hgone).1, rfl⟩, h.silent, h.room, h.arrived,
    h.owner, h.handed⟩
  exact (h.serves object hobject).of_same rfl rfl rfl nofun

theorem handleEvent (h : Sound s) (hself : s.acceptor_ = some self) (hreported : s.reported = true)
    {accepted : Except Errno Nat} {t : System} (hevent : s.handleEvent limit self accepted = some t) : Sound t := by
  cases h.reads hself hreported hevent with
  | served hqueue hlistening hclosed => exact h.idle.served hself hqueue hlistening hclosed rfl
  | failed => exact h.idle

theorem destroy (h : Sound s) (hself : s.acceptor_ = some self) (hidle : s.reported = false) : Sound (s.destroy self) := by
  have hserves := h.serves self hself
  obtain ⟨hagrees, hexited, _⟩ := perform_spec hserves.agrees .disableAll
  obtain ⟨_, hexited', _⟩ := perform_spec hagrees .remove
  have hpoller := hexited'.trans (hexited.trans h.poller)
  refine ⟨hpoller, hpoller, nofun, fun _ => ⟨rfl, hidle⟩, fun _ => rfl, Nat.zero_le _, ?_, ?_, fun fd => ?_⟩
  · change s.arrived = (s.outcomes ++ s.socket.queue.map _).map Prod.fst ++ []
    rw [h.arrived, List.map_append, List.map_map, List.append_nil]
    exact congrArg _ (List.map_id _).symm
  · intro other hother
    obtain ⟨hne, hold⟩ := update_none_iff.mp hother
    obtain ⟨object, hobject, hsocket⟩ := h.owner other hold
    obtain rfl := Option.some.inj (hself.symm.trans hobject)
    exact absurd hsocket.symm hne
  · have hnone : (s.socket.queue.map fun peer => (peer, Outcome.reset)).countP
        (fun outcome => outcome.2 == .handed fd) = 0 := by
      rw [List.countP_map, List.countP_eq_zero]
      simp
    change (s.outcomes ++ _).countP _ = _
    rw [List.countP_append, hnone, Nat.add_zero]
    exact h.handed_update (by rw [hserves.opened]; nofun) (show (none : Option Owner) ≠ some .connection from nofun) fd

theorem perform (h : Sound s) {channel : Channel} {op : ChannelOp}
    (hother : ∀ self, s.acceptor_ = some self → self.acceptSocket_ ≠ channel.fd_)
    (hexited : (channel.perform s.poller op).1.exited = false) :
    Sound { s with
      poller := (channel.perform s.poller op).1
      exited := (channel.perform s.poller op).1.exited } := by
  refine ⟨hexited, hexited, fun object hobject => ?_, h.gone, h.silent, h.room, h.arrived, h.owner, h.handed⟩
  obtain ⟨hopened, hfd, hagrees, hlistening, hindex, hevents, hreported⟩ := h.serves object hobject
  have hne : object.acceptChannel_.fd_ ≠ channel.fd_ := by
    rw [hfd]
    exact hother object hobject
  obtain ⟨hinterest, hchannels⟩ := perform_frame s.poller channel op hne
  exact ⟨hopened, hfd, hagrees.of_entries hinterest hchannels, hlistening, hindex, hevents, hreported⟩

/-- A descriptor is opened or closed that is neither the acceptor's nor a connection's. -/
theorem other (h : Sound s) {fd : Nat} {owner : Option Owner} (hlistener : s.open_ fd ≠ some .listener)
    (hconnection : s.open_ fd ≠ some .connection) (howner : owner = none ∨ owner = some .other) :
    Sound { s with open_ := Function.update s.open_ fd owner } := by
  refine ⟨h.exited, h.poller, fun object hobject => ?_, h.gone, h.silent, h.room, h.arrived, fun fd' hopen => ?_, ?_⟩
  · exact (h.serves object hobject).of_same (h.serves_update hobject hlistener) rfl rfl fun htold => ⟨htold, id⟩
  · refine h.owner_update ?_ hopen
    rintro rfl
    obtain hnone | hother := howner
    · cases hnone
    · cases hother
  · refine h.handed_update hconnection ?_
    rintro rfl
    obtain hnone | hother := howner
    · cases hnone
    · cases hother

/-- The owner of a connection closes its descriptor. -/
theorem close (h : Sound s) {fd : Nat} (hconnection : s.open_ fd = some .connection) :
    Sound { s with
      open_ := Function.update s.open_ fd none
      closes := Function.update s.closes fd (s.closes fd + 1) } := by
  have hlistener : s.open_ fd ≠ some .listener := by
    rw [hconnection]
    nofun
  refine ⟨h.exited, h.poller, fun object hobject => ?_, h.gone, h.silent, h.room, h.arrived,
    fun fd' hopen => h.owner_update (show (none : Option Owner) ≠ some .listener from nofun) hopen, fun fd' => ?_⟩
  · exact (h.serves object hobject).of_same (h.serves_update hobject hlistener) rfl rfl fun htold => ⟨htold, id⟩
  · change s.outcomes.countP _ = Function.update s.closes fd _ fd' + if Function.update s.open_ fd none fd' = _ then 1 else 0
    rw [h.handed fd']
    by_cases hsame : fd' = fd
    · subst hsame
      simp [hconnection]
    · simp [hsame]

/-- Every step ends the process or keeps the invariant. -/
theorem step {i : Input} {t : System} (h : Sound s) (hstep : s.step limit i = some t) : t.exited = true ∨ Sound t := by
  obtain ⟨_, hstep⟩ := Option.ite_none_left_eq_some.mp hstep
  cases i with
  | construct channel sockfd listenAddr binds =>
    obtain ⟨⟨hgone, hfresh⟩, rfl⟩ := Option.ite_some_none_eq_some.mp hstep
    cases sockfd with
    | none => exact .inl rfl
    | some fd =>
      simp only [Option.all_some, Bool.and_eq_true, Option.isNone_iff_eq_none] at hgone hfresh
      obtain ⟨⟨hclosed, hinterest⟩, hchannels⟩ := hfresh
      cases binds with
      | true => exact .inr (h.construct hgone channel hclosed hinterest hchannels listenAddr)
      | false => exact .inl rfl
  | setNewConnectionCallback =>
    obtain ⟨self, hself, rfl⟩ := Option.map_eq_some_iff.mp hstep
    exact .inr (h.setNewConnectionCallback hself)
  | listen listens =>
    obtain ⟨self, hself, rfl⟩ := Option.map_eq_some_iff.mp hstep
    cases listens with
    | true => exact .inr (h.listen hself)
    | false => exact .inl rfl
  | arrive peer =>
    obtain ⟨⟨hlistening, hroom⟩, rfl⟩ := Option.ite_some_none_eq_some.mp hstep
    exact .inr (h.arrive peer hlistening hroom)
  | poll leftOut =>
    obtain ⟨_, hpoll⟩ := Option.ite_none_left_eq_some.mp hstep
    obtain ⟨self, hself, rfl⟩ := Option.map_eq_some_iff.mp hpoll
    exact .inr (h.poll hself leftOut)
  | handleEvent accepted =>
    obtain ⟨hreported, hevent⟩ := Option.ite_none_right_eq_some.mp hstep
    obtain ⟨self, hself, hevent⟩ := Option.bind_eq_some_iff.mp hevent
    exact .inr (h.handleEvent hself hreported hevent)
  | perform channel op =>
    obtain ⟨hother, rfl⟩ := Option.ite_some_none_eq_some.mp hstep
    by_cases hexited : (channel.perform s.poller op).1.exited = true
    · exact .inl hexited
    · refine .inr (h.perform (fun self hself => ?_) (by simpa using hexited))
      simpa [hself] using hother
  | openOther fd =>
    obtain ⟨hclosed, rfl⟩ := Option.ite_some_none_eq_some.mp hstep
    exact .inr (h.other (by rw [hclosed]; nofun) (by rw [hclosed]; nofun) (.inr rfl))
  | close fd =>
    cases howner : s.open_ fd with
    | none => simp [howner] at hstep
    | some owner =>
      simp only [howner] at hstep
      cases owner with
      | listener => cases hstep
      | connection =>
        cases hstep
        exact .inr (h.close howner)
      | other =>
        cases hstep
        exact .inr (h.other (by rw [howner]; nofun) (by rw [howner]; nofun) (.inl rfl))
  | destroy =>
    obtain ⟨hidle, hdestroy⟩ := Option.ite_none_left_eq_some.mp hstep
    obtain ⟨self, hself, rfl⟩ := Option.map_eq_some_iff.mp hdestroy
    exact .inr (h.destroy hself (by simpa using hidle))

theorem of_steps (hrun : (accepting limit).Steps Machine.Any .start s) (hgoes : s.exited = false) : Sound s := by
  have hinvariant : s.exited = true ∨ Sound s := by
    refine hrun.invariant (P := fun s => s.exited = true ∨ Sound s) ?_ (.inr start)
    rintro s i t (hexited | h) _ hstep
    · rw [show (accepting limit).step s i = none from if_pos hexited] at hstep
      cases hstep
    · exact h.step hstep
  refine hinvariant.resolve_left ?_
  rw [hgoes]
  nofun

end Sound

/-- Connections are accepted in the order in which they come, and none is lost. In every run
of an acceptor on its loop, whatever the system calls answer and whatever happens to other
channels and descriptors, the connections that have been established are, in order, those
that something became of, followed by those in the queue of the socket; the descriptors
given to `NewConnectionCallback_` are open until their owners close them, no descriptor
that was not given to it stays open, the socket of the acceptor is open exactly as long as
the acceptor exists, and the loop watches it exactly while it listens. -/
theorem peers_served_in_order {limit : Nat} {s : System} (hrun : (accepting limit).Steps Machine.Any .start s)
    (hgoes : s.exited = false) :
    s.arrived = s.outcomes.map Prod.fst ++ s.socket.queue ∧
    (∀ fd, s.outcomes.countP (fun outcome => outcome.2 == .handed fd) =
      s.closes fd + if s.open_ fd = some .connection then 1 else 0) ∧
    (∀ fd, s.open_ fd = some .listener ↔ ∃ self, s.acceptor_ = some self ∧ self.acceptSocket_ = fd) ∧
    (s.acceptor_ = none → s.socket.queue = []) ∧
    ∀ self, s.acceptor_ = some self → s.socket.listening = self.listenning_ ∧
      s.poller.interest self.acceptSocket_ = if self.listenning_ then
        some { events := kReadEvent, ptr := self.acceptChannel_.addr } else none := by
  have h := Sound.of_steps hrun hgoes
  refine ⟨h.arrived, h.handed, fun fd => ⟨h.owner fd, ?_⟩, fun hgone => ?_, fun self hself => ?_⟩
  · rintro ⟨self, hself, rfl⟩
    exact (h.serves self hself).opened
  · rw [(h.gone hgone).1]
    rfl
  · obtain ⟨_, hfd, hagrees, hlistening, hindex, hevents, _⟩ := h.serves self hself
    refine ⟨hlistening, ?_⟩
    have hentry := hagrees.interest_eq
    rw [hfd, hindex, hevents] at hentry
    cases hlistenning : self.listenning_ with
    | true => simpa [hlistenning] using hentry
    | false => simpa [hlistenning] using hentry

/-- With a peer that waits `poll` reports the acceptor's channel, unless it leaves that out. -/
theorem Serves.poll_eq {s : System} {self : Acceptor} (h : Serves s self) (hlistening : s.socket.listening = true)
    (hqueue : s.socket.queue ≠ []) : s.poll self false =
      { s with
        acceptor_ := some { self with acceptChannel_ := self.acceptChannel_.set_revents EPOLLIN }
        reported := true } := by
  have hreport : s.report self.acceptChannel_ = EPOLLIN := by
    rw [h.report_eq, if_pos]
    exact ⟨h.listening.symm.trans hlistening, hqueue⟩
  rw [System.poll, hreport]
  exact if_neg (by decide)

/-- A call of `poll` that leaves the acceptor's channel out changes nothing for it. -/
theorem Sound.step_leftOut {limit : Nat} {s : System} {self : Acceptor} (h : Sound s) (hself : s.acceptor_ = some self)
    (hidle : s.reported = false) : (accepting limit).step s (.poll true) = some s := by
  simp only [accepting, System.step, h.exited, hidle, hself]
  rfl

/-- The first peer is served if `accept4` answers with a descriptor. -/
theorem Sound.handleEvent_ok {limit : Nat} {s : System} {self : Acceptor} (h : Sound s) (hself : s.acceptor_ = some self)
    (hreported : s.reported = true) (hlistening : s.socket.listening = true) {peer : InetAddress}
    {queue : List InetAddress} (hqueue : s.socket.queue = peer :: queue) {connfd : Nat} (hlimit : connfd < limit)
    (hclosed : s.open_ connfd = none) : s.step limit (.handleEvent (.ok connfd)) =
      some (System.served { s with reported := false } self connfd peer queue) := by
  obtain ⟨_, hrevents⟩ := (h.serves self hself).reported hreported
  have hread : .readCallback_ ∈ self.acceptChannel_.handleEventWithGuard := by
    rw [Channel.readCallback_mem_iff, hrevents]
    decide
  have haccept : System.accept4 limit { s with reported := false } (.ok connfd) =
      some (some (connfd, peer), { s with
        reported := false
        socket := { s.socket with queue }
        open_ := Function.update s.open_ connfd (some .connection) }) := by
    simp only [System.accept4, hqueue]
    exact if_pos ⟨hlistening, hlimit, hclosed⟩
  have hevent : s.step limit (.handleEvent (.ok connfd)) = s.handleEvent limit self (.ok connfd) := by
    simp only [System.step, h.exited, hreported, hself]
    rfl
  rw [hevent, System.handleEvent]
  simp only [if_pos hread]
  rw [System.handleRead, haccept]
  cases hcallback : self.NewConnectionCallback_ with
  | true => simp [System.served, hcallback]
  | false => simp [System.served, hcallback]

/-- A pass that leaves the acceptor's channel out, or one that reports it and accepts a
connection. -/
def pass : Option Nat → List Input
  | none => [.poll true]
  | some connfd => [.poll false, .handleEvent (.ok connfd)]

/-- What becomes of the peers of a queue that are given these descriptors. -/
def outcomesOf (NewConnectionCallback_ : Bool) (queue : List InetAddress) (fds : List Nat) : List (InetAddress × Outcome) :=
  queue.zip (fds.map fun connfd => if NewConnectionCallback_ then .handed connfd else .closed connfd)

/-- A pass that reports the acceptor's channel and accepts serves the first peer. -/
theorem Sound.run_pass {limit : Nat} {s : System} {self : Acceptor} (h : Sound s) (hself : s.acceptor_ = some self)
    (hidle : s.reported = false) {peer : InetAddress} {queue : List InetAddress} (hqueue : s.socket.queue = peer :: queue)
    {connfd : Nat} (hlimit : connfd < limit) (hclosed : s.open_ connfd = none) :
    ∃ t object, (accepting limit).run s (pass (some connfd)) = some t ∧ Sound t ∧ t.acceptor_ = some object ∧
      object.NewConnectionCallback_ = self.NewConnectionCallback_ ∧ t.reported = false ∧ t.socket.queue = queue ∧
      (∀ fd, fd ≠ connfd → t.open_ fd = s.open_ fd) ∧
      t.outcomes = s.outcomes ++ [(peer, if self.NewConnectionCallback_ then .handed connfd else .closed connfd)] := by
  have hlistening : s.socket.listening = true := by
    by_contra hnot
    rw [h.silent (by simpa using hnot)] at hqueue
    cases hqueue
  have hpolled := h.poll hself false
  have hpoll_eq := (h.serves self hself).poll_eq hlistening (by simp [hqueue])
  generalize htold : s.poll self false = told at hpolled hpoll_eq
  have hpoll : (accepting limit).step s (.poll false) = some told := by
    rw [← htold]
    simp only [accepting, System.step, h.exited, hidle, hself]
    rfl
  subst hpoll_eq
  have hevent : (accepting limit).step _ (.handleEvent (.ok connfd)) = some _ :=
    hpolled.handleEvent_ok rfl rfl hlistening hqueue hlimit hclosed
  have hserved := (hpolled.idle).served rfl hqueue hlistening hclosed rfl
  refine ⟨_, _, Machine.run_cons hpoll (Machine.run_cons hevent rfl), hserved, rfl, rfl, rfl, rfl, ?_, rfl⟩
  intro fd hne
  exact Function.update_of_ne hne _ _

/-- As many passes as peers wait serve them all, with any others between them. -/
theorem run_passes {limit : Nat} {s : System} {self : Acceptor} (h : Sound s) (hself : s.acceptor_ = some self)
    (hidle : s.reported = false) {passes : List (Option Nat)} (hnodup : (passes.filterMap id).Nodup)
    (hfree : ∀ fd ∈ passes.filterMap id, fd < limit ∧ s.open_ fd = none)
    (hlength : (passes.filterMap id).length = s.socket.queue.length) :
    ∃ t, (accepting limit).run s (passes.flatMap pass) = some t ∧ t.socket.queue = [] ∧
      t.outcomes = s.outcomes ++ outcomesOf self.NewConnectionCallback_ s.socket.queue (passes.filterMap id) := by
  induction passes generalizing s self with
  | nil =>
    have hqueue : s.socket.queue = [] := List.eq_nil_of_length_eq_zero hlength.symm
    refine ⟨s, rfl, hqueue, ?_⟩
    rw [hqueue]
    exact (List.append_nil _).symm
  | cons turn passes ih =>
    cases turn with
    | none =>
      obtain ⟨t, hrun, hserved⟩ := ih h hself hidle hnodup hfree hlength
      exact ⟨t, Machine.run_cons (h.step_leftOut hself hidle) hrun, hserved⟩
    | some connfd =>
      obtain ⟨peer, queue, hqueue⟩ : ∃ peer queue, s.socket.queue = peer :: queue := by
        cases hqueue : s.socket.queue with
        | nil => simp [hqueue] at hlength
        | cons peer queue => exact ⟨peer, queue, rfl⟩
      obtain ⟨hfresh, hnodup⟩ := List.nodup_cons.mp hnodup
      obtain ⟨hlimit, hclosed⟩ := hfree connfd List.mem_cons_self
      obtain ⟨u, object, hpass, hu, hobject, hcallback, hidle', hrest, hopen, houtcomes⟩ :=
        h.run_pass hself hidle hqueue hlimit hclosed
      have hfree' : ∀ fd ∈ passes.filterMap id, fd < limit ∧ u.open_ fd = none := by
        intro fd hmem
        have hne : fd ≠ connfd := by
          rintro rfl
          exact hfresh hmem
        obtain ⟨hlt, hnone⟩ := hfree fd (List.mem_cons_of_mem _ hmem)
        exact ⟨hlt, (hopen fd hne).trans hnone⟩
      have hlength' : (passes.filterMap id).length = u.socket.queue.length := by
        rw [hqueue] at hlength
        rw [hrest]
        exact Nat.succ.inj hlength
      obtain ⟨t, hrun, hempty, hmore⟩ := ih hu hobject hidle' hnodup hfree' hlength'
      refine ⟨t, Machine.run_trans hpass hrun, hempty, ?_⟩
      rw [hmore, houtcomes, hcallback, hrest, hqueue]
      exact List.append_assoc _ _ _

/-- Peers that wait are served. In every run of an acceptor, between the passes of its loop,
a call of `poll` that does not leave the acceptor's channel out reports it exactly if it
listens and a peer waits, and one that does changes nothing. A dispatch of the channel
always finds a peer: it serves the first one, or `accept4` has failed for want of a
descriptor or of something else, and nothing has changed. As many passes as peers wait that
report the channel and are given a free descriptor serve them all in order, however many
calls of `poll` between them leave it out. -/
theorem waiting_peers_served {limit : Nat} {s : System} {self : Acceptor}
    (hrun : (accepting limit).Steps Machine.Any .start s) (hgoes : s.exited = false) (hself : s.acceptor_ = some self) :
    (∀ leftOut t, s.step limit (.poll leftOut) = some t → (leftOut = true → t = s) ∧
      (t.reported = true ↔ leftOut = false ∧ self.listenning_ = true ∧ s.socket.queue ≠ [])) ∧
    (∀ accepted t, s.step limit (.handleEvent accepted) = some t →
      (∃ connfd peer queue, accepted = .ok connfd ∧ s.socket.queue = peer :: queue ∧ s.open_ connfd = none ∧
        t = System.served { s with reported := false } self connfd peer queue) ∨
      (accepted = .error .EMFILE ∧ s.full limit = true ∨ accepted = .error .other) ∧ s.socket.queue ≠ [] ∧
        t = { s with reported := false }) ∧
    ∀ passes : List (Option Nat), s.reported = false → (passes.filterMap id).Nodup →
      (∀ fd ∈ passes.filterMap id, fd < limit ∧ s.open_ fd = none) →
      (passes.filterMap id).length = s.socket.queue.length →
      ∃ t, (accepting limit).run s (passes.flatMap pass) = some t ∧ t.socket.queue = [] ∧
        t.outcomes = s.outcomes ++ outcomesOf self.NewConnectionCallback_ s.socket.queue (passes.filterMap id) := by
  have h := Sound.of_steps hrun hgoes
  have hserves := h.serves self hself
  refine ⟨fun leftOut t hstep => ?_, fun accepted t hstep => ?_, fun passes hidle hnodup hfree hlength => ?_⟩
  · obtain ⟨_, hstep⟩ := Option.ite_none_left_eq_some.mp hstep
    obtain ⟨hidle, hpoll⟩ := Option.ite_none_left_eq_some.mp hstep
    rw [hself, Option.map_some] at hpoll
    obtain rfl := Option.some.inj hpoll
    cases leftOut with
    | true => exact ⟨fun _ => if_pos (.inl rfl), by simpa [System.poll] using hidle⟩
    | false =>
      refine ⟨by simp, ?_⟩
      by_cases hwaits : self.listenning_ = true ∧ s.socket.queue ≠ []
      · rw [hserves.poll_eq (hserves.listening.trans hwaits.1) hwaits.2]
        exact ⟨fun _ => ⟨rfl, hwaits⟩, fun _ => rfl⟩
      · have hreport : s.report self.acceptChannel_ = 0 := by rw [hserves.report_eq, if_neg hwaits]
        rw [System.poll, if_pos (.inr hreport)]
        exact ⟨fun htold => absurd htold hidle, fun hmust => absurd hmust.2 hwaits⟩
  · obtain ⟨_, hstep⟩ := Option.ite_none_left_eq_some.mp hstep
    obtain ⟨hreported, hevent⟩ := Option.ite_none_right_eq_some.mp hstep
    rw [hself, Option.bind_some] at hevent
    have hqueue := (hserves.reported hreported).1
    cases h.reads hself hreported hevent with
    | served hfirst hlistening hclosed => exact .inl ⟨_, _, _, rfl, hfirst, hclosed, rfl⟩
    | @failed e hagain hinval hfull =>
      refine .inr ⟨?_, hqueue, rfl⟩
      cases e with
      | EAGAIN => exact absurd (hagain rfl) hqueue
      | EINVAL => exact absurd (h.silent (hinval rfl)) hqueue
      | EMFILE => exact .inl ⟨rfl, hfull rfl⟩
      | other => exact .inr rfl
  · exact run_passes h hself hidle hnodup hfree hlength

/-- Two peers come while the process has one descriptor left: the second one waits until the
owner of the first connection has closed it. -/
def oneDescriptorLeft : List Input :=
  [.openOther 0, .construct 100 (some 1) .loopback true, .setNewConnectionCallback, .listen true, .arrive .loopback,
    .arrive .loopback, .poll false, .handleEvent (.ok 2), .poll false, .handleEvent (.error .EMFILE), .close 2]

theorem peers_served_in_order_oneDescriptorLeft :
    ∃ s, (accepting 3).run .start oneDescriptorLeft = some s ∧
      s.arrived = s.outcomes.map Prod.fst ++ s.socket.queue ∧ s.closes 2 = 1 ∧
      s.outcomes.countP (fun outcome => outcome.2 == .handed 2) =
        s.closes 2 + if s.open_ 2 = some .connection then 1 else 0 := by
  have hruns : ((accepting 3).run .start oneDescriptorLeft).map (fun s => (s.exited, s.closes 2)) = some (false, 1) := by
    decide +kernel
  obtain ⟨s, hrun, heq⟩ := Option.map_eq_some_iff.mp hruns
  obtain ⟨hgoes, hcloses⟩ := Prod.mk.inj heq
  obtain ⟨harrived, hhanded, _⟩ := peers_served_in_order
    (Machine.steps_of_run hrun (Machine.along_of_forall (fun _ _ _ => trivial) _)) hgoes
  exact ⟨s, hrun, harrived, hcloses, hhanded 2⟩

/-- A signal interrupts the next call of `poll`, and then the second peer is served. -/
theorem waiting_peers_served_oneDescriptorLeft :
    ∃ s t, (accepting 3).run .start oneDescriptorLeft = some s ∧
      (accepting 3).run s ([none, some 2].flatMap pass) = some t ∧ t.socket.queue = [] := by
  have hruns : ((accepting 3).run .start oneDescriptorLeft).map
      (fun s => (s.exited, s.acceptor_.isSome, s.reported, s.open_ 2, s.socket.queue.length)) =
        some (false, true, false, none, 1) := by
    decide +kernel
  obtain ⟨s, hrun, heq⟩ := Option.map_eq_some_iff.mp hruns
  simp only [Prod.mk.injEq] at heq
  obtain ⟨hgoes, hsome, hidle, hclosed, hlength⟩ := heq
  obtain ⟨self, hself⟩ := Option.isSome_iff_exists.mp hsome
  obtain ⟨_, _, hserved⟩ := waiting_peers_served
    (Machine.steps_of_run hrun (Machine.along_of_forall (fun _ _ _ => trivial) _)) hgoes hself
  obtain ⟨t, hpasses, hempty, _⟩ := hserved [none, some 2] hidle (List.nodup_singleton 2)
    (fun fd hmem => by simp [List.mem_singleton.mp hmem, hclosed]) hlength.symm
  exact ⟨s, t, hrun, hpasses, hempty⟩

end muduo.acceptor
