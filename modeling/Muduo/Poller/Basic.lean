import Mathlib.Logic.Function.Basic

namespace muduo.epoll

/-- Event masks, as `epoll` and `Channel` hold them in an `int`. -/
abbrev Mask := BitVec 32

def EPOLLIN : Mask := 0x001

def EPOLLPRI : Mask := 0x002

def EPOLLOUT : Mask := 0x004

def EPOLLERR : Mask := 0x008

def EPOLLHUP : Mask := 0x010

def kNoneEvent : Mask := 0

def kReadEvent : Mask := EPOLLIN ||| EPOLLPRI

def kWriteEvent : Mask := EPOLLOUT

/-- Whether two masks share an event. -/
def Mask.meets (mask events : Mask) : Bool := mask &&& events != 0

/-- The poller's mark on a channel: never added, added, or added and deleted again. -/
inductive Index where
  | kNew
  | kAdded
  | kDeleted
  deriving DecidableEq, Repr

/-- A channel, known to the poller and the kernel by its address. -/
structure Channel where
  addr : Nat
  fd_ : Nat
  events_ : Mask
  revents_ : Mask
  index_ : Index
  tied_ : Bool
  deriving DecidableEq, Repr

def Channel.construct (addr fd : Nat) : Channel where
  addr := addr
  fd_ := fd
  events_ := 0
  revents_ := 0
  index_ := .kNew
  tied_ := false

namespace Channel

def set_revents (self : Channel) (revents : Mask) : Channel := { self with revents_ := revents }

def set_index (self : Channel) (index : Index) : Channel := { self with index_ := index }

def isNoneEvent (self : Channel) : Bool := self.events_ == kNoneEvent

def isWriting (self : Channel) : Bool := self.events_.meets kWriteEvent

def isReading (self : Channel) : Bool := self.events_.meets kReadEvent

def tie (self : Channel) : Channel := { self with tied_ := true }

end Channel

inductive EpollOp where
  | EPOLL_CTL_ADD
  | EPOLL_CTL_MOD
  | EPOLL_CTL_DEL
  deriving DecidableEq, Repr

/-- One entry of the kernel's interest list. -/
structure EpollEvent where
  events : Mask
  ptr : Nat
  deriving DecidableEq, Repr

/-- `epoll_ctl` on the interest list of one epoll instance: adding needs an
unregistered descriptor, modifying and deleting a registered one. -/
def epoll_ctl (interest : Nat → Option EpollEvent) (op : EpollOp) (fd : Nat) (event : EpollEvent) :
    Option (Nat → Option EpollEvent) :=
  match op, interest fd with
  | .EPOLL_CTL_ADD, none => some (Function.update interest fd (some event))
  | .EPOLL_CTL_MOD, some _ => some (Function.update interest fd (some event))
  | .EPOLL_CTL_DEL, some _ => some (Function.update interest fd none)
  | _, _ => none

/-- The poller with its epoll instance. `exited` says that `LOG_FATAL` has ended
the process, `delErrors` counts the failed deletions that were only logged. -/
structure EPollPoller where
  channels_ : Nat → Option Nat
  interest : Nat → Option EpollEvent
  exited : Bool
  delErrors : Nat

namespace EPollPoller

def construct : EPollPoller where
  channels_ := fun _ => none
  interest := fun _ => none
  exited := false
  delErrors := 0

def hasChannel (self : EPollPoller) (channel : Channel) : Bool :=
  self.channels_ channel.fd_ == some channel.addr

def update (self : EPollPoller) (op : EpollOp) (channel : Channel) : EPollPoller :=
  match epoll_ctl self.interest op channel.fd_ { events := channel.events_, ptr := channel.addr } with
  | some interest => { self with interest }
  | none =>
    if op = .EPOLL_CTL_DEL then { self with delErrors := self.delErrors + 1 }
    else { self with exited := true }

def updateChannel (self : EPollPoller) (channel : Channel) : EPollPoller × Channel :=
  if channel.index_ = .kNew ∨ channel.index_ = .kDeleted then
    let self :=
      if channel.index_ = .kNew then
        { self with channels_ := Function.update self.channels_ channel.fd_ (some channel.addr) }
      else self
    let channel := channel.set_index .kAdded
    (self.update .EPOLL_CTL_ADD channel, channel)
  else if channel.isNoneEvent then
    (self.update .EPOLL_CTL_DEL channel, channel.set_index .kDeleted)
  else
    (self.update .EPOLL_CTL_MOD channel, channel)

def removeChannel (self : EPollPoller) (channel : Channel) : EPollPoller × Channel :=
  let self := { self with channels_ := Function.update self.channels_ channel.fd_ none }
  let self := if channel.index_ = .kAdded then self.update .EPOLL_CTL_DEL channel else self
  (self, channel.set_index .kNew)

end EPollPoller

/-- The interest operations of `Channel`. Each but `remove` changes the event mask
and passes the channel to `updateChannel` of the poller of its loop. -/
inductive ChannelOp where
  | enableReading
  | disableReading
  | enableWriting
  | disableWriting
  | disableAll
  | remove
  deriving DecidableEq, Repr

namespace Channel

variable (self : Channel) (poller : EPollPoller)

def update : EPollPoller × Channel := poller.updateChannel self

def enableReading : EPollPoller × Channel :=
  update { self with events_ := self.events_ ||| kReadEvent } poller

def disableReading : EPollPoller × Channel :=
  update { self with events_ := self.events_ &&& ~~~kReadEvent } poller

def enableWriting : EPollPoller × Channel :=
  update { self with events_ := self.events_ ||| kWriteEvent } poller

def disableWriting : EPollPoller × Channel :=
  update { self with events_ := self.events_ &&& ~~~kWriteEvent } poller

def disableAll : EPollPoller × Channel :=
  update { self with events_ := kNoneEvent } poller

def remove : EPollPoller × Channel := poller.removeChannel self

def perform : ChannelOp → EPollPoller × Channel
  | .enableReading => self.enableReading poller
  | .disableReading => self.disableReading poller
  | .enableWriting => self.enableWriting poller
  | .disableWriting => self.disableWriting poller
  | .disableAll => self.disableAll poller
  | .remove => self.remove poller

end Channel

/-- The callbacks of a channel, in the order in which one dispatch makes them. -/
inductive EventCallback where
  | closeCallback_
  | errorCallback_
  | readCallback_
  | writeCallback_
  deriving DecidableEq, Repr

/-- `handleEventWithGuard` of a channel with all four callbacks set. The mask is
the one that `poll` stored, so the four tests do not see what an earlier callback
of the same dispatch did to the channel. -/
def Channel.handleEventWithGuard (self : Channel) : List EventCallback :=
  (if self.revents_.meets EPOLLHUP && !self.revents_.meets EPOLLIN then [.closeCallback_] else []) ++
  (if self.revents_.meets EPOLLERR then [.errorCallback_] else []) ++
  (if self.revents_.meets (EPOLLIN ||| EPOLLPRI) then [.readCallback_] else []) ++
  (if self.revents_.meets EPOLLOUT then [.writeCallback_] else [])

end muduo.epoll
