import Muduo.TcpServer.Work

open transition
open muduo.kernel muduo.buffer muduo.epoll muduo.event_loop
open muduo.tcp_connection (Act Functor Event StateE TcpConnection World)

namespace muduo.tcp_server

/-- The thread of a loop that waits in `poll` with nothing queued. -/
def waiting : LoopThread Task Handler :=
  { loop := { EventLoop.construct with looping_ := true }, at_ := .polling }

/-- A connection object with its socket and its entries in the poller. -/
structure Second where
  object : Option (Object Unit)
  descriptor : Option Nat
  channel : Option Nat
  event : Option EpollEvent

/-- No object, no socket and no entries. -/
def absent : Second := { object := none, descriptor := none, channel := none, event := none }

/-- An object at address 2 in a given state, which its poller holds or not. -/
def Object.second (object : Object Unit) (state_ : StateE) (index_ : Index) : Object Unit :=
  { object with
    conn := { object.conn with state_, channel_ := { object.conn.channel_ with addr := 2, fd_ := 2, index_ } } }

/-- A server with one loop, on which the first connection is idle and no functor of a batch
has returned, with a second connection that nobody holds. -/
def TcpServer.within (s : TcpServer Unit) (first : Object Unit) (thread : LoopThread Task Handler) (todo : List Job)
    (second : Second) : TcpServer Unit :=
  { s with
    loops_ := []
    threads := fun _ => thread
    ran := fun _ => []
    todos := fun _ => todo
    objects := Function.update (Function.update s.objects 1 (some first)) 2 second.object
    descriptors := Function.update s.descriptors 2 second.descriptor
    held := Function.update s.held 2 false
    pollers := fun _ =>
      { s.pollers () with
        channels_ := Function.update (s.pollers ()).channels_ 2 second.channel
        interest := Function.update (s.pollers ()).interest 2 second.event } }

theorem within_eq {t : TcpServer Unit} {first : Object Unit} {thread : LoopThread Task Handler} {todo : List Job}
    {second : Second} (hloops : t.loops_ = []) (hthread : t.threads () = thread) (hran : t.ran () = [])
    (htodo : t.todos () = todo)
    (hfirst : t.objects 1 = some first) (hobject : t.objects 2 = second.object)
    (hdescriptor : t.descriptors 2 = second.descriptor) (hheld : t.held 2 = false)
    (hchannel : (t.pollers ()).channels_ 2 = second.channel) (hevent : (t.pollers ()).interest 2 = second.event) :
    t.within first thread todo second = t := by
  subst hthread htodo
  rw [TcpServer.within, ← hloops, ← hran, ← hfirst, ← hobject, ← hdescriptor, ← hheld, ← hchannel, ← hevent]
  simp only [Function.update_eq_self]

/-- The base loop, which is the only one, accepts a connection. -/
def arrives (address : Nat) : List (Input Unit) :=
  [.advance () (.poll [.channel .acceptor]) fun _ => 0, .advance () .dispatch fun _ => 0,
    .act () (some (address, address)) (.data []) (.bytes 0)]

/-- The loop establishes the connection and goes around. -/
def establishes : List (Input Unit) :=
  [.act () none (.data []) (.bytes 0), .userReturns (), .advance () .handled fun _ => 0,
    .advance () .beginFunctors fun _ => 0, .advance () .swap fun _ => 0, .advance () .endFunctors fun _ => 0,
    .advance () .test fun _ => 0]

/-- The peer of the second connection hangs up. -/
def hangsUp : List (Input Unit) :=
  [.advance () (.poll [.channel (.connection 2)]) fun _ => EPOLLHUP, .advance () .dispatch fun _ => 0]

/-- The connection is closed and removed. -/
def removes : List (Input Unit) :=
  [.act () none (.data []) (.bytes 0), .userReturns (), .act () none (.data []) (.bytes 0),
    .act () none (.data []) (.bytes 0), .act () none (.data []) (.bytes 0)]

/-- The loop takes `connectDestroyed`. -/
def takes : List (Input Unit) :=
  [.advance () .handled fun _ => 0, .advance () .beginFunctors fun _ => 0, .advance () .swap fun _ => 0,
    .advance () .take fun _ => 0]

/-- The connection is destroyed, and the loop goes around. -/
def destroys : List (Input Unit) :=
  [.act () none (.data []) (.bytes 0), .act () none (.data []) (.bytes 0), .advance () .returned fun _ => 0,
    .advance () .endFunctors fun _ => 0, .advance () .test fun _ => 0]

/-- A connection that comes, is hung up by its peer, and goes. -/
def visit : List (Input Unit) :=
  arrives 2 ++ establishes ++ hangsUp ++ removes ++ takes ++ destroys ++ [.destroy 2]

/-- The loop of a server with no connections is entered, and takes the first one. -/
def opens : List (Input Unit) :=
  [.advance () .enter fun _ => 0, .advance () .test fun _ => 0] ++ arrives 1 ++ establishes

section

variable (s : TcpServer Unit) (first object : Object Unit)

theorem handleEventWithGuard_hangUp {channel : Channel} (h : channel.revents_ = EPOLLHUP) :
    channel.handleEventWithGuard = [.closeCallback_] := by
  unfold Channel.handleEventWithGuard
  rw [h]
  rfl

theorem run_arrives : ∃ t, (server Unit fun _ => true).run (s.within first waiting [] absent)
    (arrives 2 ++ establishes ++ hangsUp) = some t ∧ ∃ (object : Object Unit) (event : EpollEvent),
    object.second .kConnected .kAdded = object ∧ object.name_ = s.nextConnId_ ∧
    t.within first { waiting with at_ := .handling (.connection 2) [] }
      [.connection 2 (.callback .closeCallback_)] ⟨some object, some 2, some 2, some event⟩ = t ∧
    t.nextConnId_ = s.nextConnId_ + 1 ∧
    t.connections_ = Function.update s.connections_ s.nextConnId_ (some 2) ∧ t.held 1 = s.held 1 := by
  refine ⟨_, rfl, ?_⟩
  refine ⟨_, _, ?_, ?_, within_eq rfl rfl rfl ?_ rfl rfl rfl rfl rfl rfl, ?_⟩
  · rfl
  · rfl
  · change List.map _ (Channel.handleEventWithGuard _) = _
    rw [handleEventWithGuard_hangUp rfl]
    rfl
  · exact ⟨rfl, rfl, rfl⟩

theorem run_removes (event : EpollEvent) : ∃ t, (server Unit fun _ => true).run
    (s.within first { waiting with at_ := .handling (.connection 2) [] } [.connection 2 (.callback .closeCallback_)]
      ⟨some (object.second .kConnected .kAdded), some 2, some 2, some event⟩) removes = some t ∧
    ∃ object' : Object Unit, object'.second .kDisconnected .kDeleted = object' ∧ object'.name_ = object.name_ ∧
    t.within first
      { loop := { waiting.loop with pendingFunctors_ := [.connection 2 .connectDestroyed] },
        at_ := .handling (.connection 2) [] }
      [] ⟨some object', some 2, some 2, none⟩ = t ∧
    t.nextConnId_ = s.nextConnId_ ∧ t.connections_ = Function.update s.connections_ object.name_ none ∧
    t.held 1 = s.held 1 := by
  refine ⟨_, rfl, ?_⟩
  refine ⟨_, ?_, ?_, within_eq rfl rfl rfl rfl rfl rfl rfl rfl rfl rfl, ?_⟩
  · rfl
  · rfl
  · exact ⟨rfl, rfl, rfl⟩

theorem run_takes : ∃ t, (server Unit fun _ => true).run
    (s.within first
      { loop := { waiting.loop with pendingFunctors_ := [.connection 2 .connectDestroyed] },
        at_ := .handling (.connection 2) [] }
      [] ⟨some (object.second .kDisconnected .kDeleted), some 2, some 2, none⟩) takes = some t ∧
    t.within first
      { loop := { waiting.loop with callingPendingFunctors_ := true },
        at_ := .running (.connection 2 .connectDestroyed) [] }
      [.connection 2 (.call .connectDestroyed)]
      ⟨some (object.second .kDisconnected .kDeleted), some 2, some 2, none⟩ = t ∧
    t.nextConnId_ = s.nextConnId_ ∧ t.connections_ = s.connections_ ∧ t.held 1 = s.held 1 := by
  refine ⟨_, rfl, within_eq rfl rfl rfl rfl rfl rfl rfl rfl rfl rfl, ?_⟩
  exact ⟨rfl, rfl, rfl⟩

theorem run_destroys : ∃ t, (server Unit fun _ => true).run
    (s.within first
      { loop := { waiting.loop with callingPendingFunctors_ := true },
        at_ := .running (.connection 2 .connectDestroyed) [] }
      [.connection 2 (.call .connectDestroyed)]
      ⟨some (object.second .kDisconnected .kDeleted), some 2, some 2, none⟩) destroys = some t ∧
    ∃ object' : Object Unit, object'.name_ = object.name_ ∧ object'.conn.channel_.fd_ = 2 ∧
    t.within first waiting [] ⟨some object', some 2, none, none⟩ = t ∧
    t.nextConnId_ = s.nextConnId_ ∧ t.connections_ = s.connections_ ∧ t.held 1 = s.held 1 := by
  refine ⟨_, rfl, ?_⟩
  refine ⟨_, ?_, ?_, within_eq rfl rfl rfl rfl rfl rfl rfl rfl rfl rfl, ?_⟩
  · rfl
  · rfl
  · exact ⟨rfl, rfl, rfl⟩

/-- An object that is no longer in `connections_` goes when nobody holds it. -/
theorem run_destroy (hname : s.connections_ object.name_ = none) (hfd : object.conn.channel_.fd_ = 2) :
    ∃ t, (server Unit fun _ => true).run (s.within first waiting [] ⟨some object, some 2, none, none⟩)
      [.destroy 2] = some t ∧
    t.within first waiting [] absent = t ∧ t.nextConnId_ = s.nextConnId_ ∧ t.connections_ = s.connections_ ∧
    t.held 1 = s.held 1 := by
  have hobject : (s.within first waiting [] ⟨some object, some 2, none, none⟩).objects 2 = some object := rfl
  have hheld : (s.within first waiting [] ⟨some object, some 2, none, none⟩).held 2 = false := rfl
  have hmapped : (s.within first waiting [] ⟨some object, some 2, none, none⟩).mapped 2 = false := by
    rw [TcpServer.mapped, hobject]
    change (s.connections_ object.name_ == some 2) = false
    rw [hname]
    rfl
  have hthread : (s.within first waiting [] ⟨some object, some 2, none, none⟩).ownedBy 2 () = false := rfl
  have howned : (s.within first waiting [] ⟨some object, some 2, none, none⟩).owned 2 = false := by
    rw [TcpServer.owned, hheld, hmapped]
    simp [hthread]
  refine ⟨(s.within first waiting [] ⟨some object, some 2, none, none⟩).destroy 2 object, ?_, ?_, rfl, rfl, rfl⟩
  · simp [Machine.run, server, TcpServer.step, howned, hobject]
  · refine within_eq rfl rfl rfl rfl rfl rfl ?_ rfl rfl rfl
    simp [TcpServer.destroy, hfd, absent]

end

/-- A visit leaves a server as it was, but for the number of its next connection. -/
theorem run_visit {s : TcpServer Unit} {first : Object Unit} (hrest : s.within first waiting [] absent = s) :
    ∃ t, (server Unit fun _ => true).run s visit = some t ∧ t.within first waiting [] absent = t ∧
    t.nextConnId_ = s.nextConnId_ + 1 ∧ t.connections_ = Function.update s.connections_ s.nextConnId_ none ∧
    t.held 1 = s.held 1 := by
  obtain ⟨t₁, hrun₁, object₁, event, hobject₁, hname₁, hin₁, hid₁, hmap₁, hheld₁⟩ := run_arrives s first
  obtain ⟨t₂, hrun₂, object₂, hobject₂, hname₂, hin₂, hid₂, hmap₂, hheld₂⟩ := run_removes t₁ first object₁ event
  obtain ⟨t₃, hrun₃, hin₃, hid₃, hmap₃, hheld₃⟩ := run_takes t₂ first object₂
  obtain ⟨t₄, hrun₄, object₄, hname₄, hfd₄, hin₄, hid₄, hmap₄, hheld₄⟩ := run_destroys t₃ first object₂
  have hfree : t₄.connections_ object₄.name_ = none := by
    rw [hmap₄, hmap₃, hmap₂, hname₄, hname₂, Function.update_self]
  obtain ⟨t₅, hrun₅, hin₅, hid₅, hmap₅, hheld₅⟩ := run_destroy t₄ first object₄ hfree hfd₄
  rw [hrest] at hrun₁
  rw [hobject₁, hin₁] at hrun₂
  rw [hobject₂, hin₂] at hrun₃
  rw [hin₃] at hrun₄
  rw [hin₄] at hrun₅
  refine ⟨t₅, ?_, hin₅, ?_, ?_, ?_⟩
  · have hrun₁₃ := Machine.run_trans (Machine.run_trans hrun₁ hrun₂) hrun₃
    exact Machine.run_trans (Machine.run_trans hrun₁₃ hrun₄) hrun₅
  · rw [hid₅, hid₄, hid₃, hid₂, hid₁]
  · rw [hmap₅, hmap₄, hmap₃, hmap₂, hmap₁, hname₁, Function.update_idem]
  · rw [hheld₅, hheld₄, hheld₃, hheld₂, hheld₁]

/-- Any number of visits. -/
theorem run_visits (n : Nat) {s : TcpServer Unit} {first : Object Unit}
    (hrest : s.within first waiting [] absent = s) :
    ∃ t, (server Unit fun _ => true).run s (List.replicate n visit).flatten = some t ∧
    t.within first waiting [] absent = t ∧ t.nextConnId_ = s.nextConnId_ + BitVec.ofNat 32 n ∧
    t.held 1 = s.held 1 := by
  induction n with
  | zero => exact ⟨s, rfl, hrest, by simp, rfl⟩
  | succ n ih =>
    obtain ⟨t, hrun, hin, hid, hheld⟩ := ih
    obtain ⟨u, hvisit, hin', hid', _, hheld'⟩ := run_visit hin
    refine ⟨u, ?_, hin', ?_, hheld'.trans hheld⟩
    · rw [List.replicate_succ', List.flatten_append, List.flatten_singleton]
      exact Machine.run_trans hrun hvisit
    · rw [hid', hid, BitVec.add_assoc]
      exact congrArg (s.nextConnId_ + ·) (BitVec.ofNat_add n 1).symm

/-- The first connection of a server, under its first name. -/
theorem run_opens : ∃ t, (server Unit fun _ => true).run (.construct () [] false) opens = some t ∧
    ∃ first : Object Unit, first.name_ = 1 ∧ first.conn.channel_.index_ = .kAdded ∧
    t.within first waiting [] absent = t ∧ t.nextConnId_ = 2 ∧ t.held 1 = false := by
  refine ⟨_, rfl, ?_⟩
  refine ⟨_, ?_, ?_, within_eq rfl rfl rfl rfl rfl rfl rfl rfl rfl rfl, ?_⟩
  · rfl
  · rfl
  · exact ⟨rfl, rfl⟩

/-- A new connection that is given the name of the first takes its place in `connections_`. -/
theorem run_takesName (s : TcpServer Unit) (first : Object Unit) (hname : first.name_ = s.nextConnId_)
    (hheld : s.held 1 = false) :
    ∃ t, (server Unit fun _ => true).run (s.within first waiting [] absent) (arrives 2) = some t ∧
    t.objects 1 = some first ∧ t.owned 1 = false := by
  have hruns : ∃ t, (server Unit fun _ => true).run (s.within first waiting [] absent) (arrives 2) = some t ∧
      t.objects 1 = some first ∧ t.held 1 = s.held 1 ∧ t.loops = [()] ∧ t.ownedBy 1 () = false ∧
      t.connections_ = Function.update s.connections_ s.nextConnId_ (some 2) := by
    refine ⟨_, rfl, ?_⟩
    exact ⟨rfl, rfl, rfl, rfl, rfl⟩
  obtain ⟨t, hrun, hobject, hkept, hloops, hthread, hmap⟩ := hruns
  refine ⟨t, hrun, hobject, ?_⟩
  have hmapped : t.mapped 1 = false := by
    rw [TcpServer.mapped, hobject, hmap, Option.any_some, hname, Function.update_self]
    rfl
  rw [TcpServer.owned, hkept, hheld, hmapped, hloops]
  simp [hthread]

end muduo.tcp_server
