import Muduo.TcpServer.Sound
import Muduo.TcpServer.Visit

open transition
open muduo.kernel muduo.buffer muduo.epoll muduo.event_loop
open muduo.tcp_connection (Act Functor Event TcpConnection World Turn)

namespace muduo.tcp_server

variable {L : Type} [DecidableEq L] {alloc : Nat → Bool}

namespace TcpServer

/-- Whether a step finds the name that it uses free: that of a new connection is not in
`connections_`, and that of a connection to be removed belongs to no other one there. -/
def namesFree (s : TcpServer L) : Input L → Bool
  | .act l accepted _ _ => match s.todos l with
    | .handleRead :: _ => accepted.isNone || (s.connections_ s.nextConnId_).isNone
    | .removeConnectionInLoop conn :: _ => (s.objects conn).all fun object =>
      (s.connections_ object.name_).all fun other => other == conn
    | _ => true
  | _ => true

/-- `connectEstablished` has run for a connection. -/
def Established (s : TcpServer L) (conn : Nat) : Prop :=
  ∃ object, s.objects conn = some object ∧ .setState .kConnected ∈ object.log

end TcpServer

/-- The names that a step uses are free. -/
def NamesFree (s : TcpServer L) (i : Input L) : Prop := s.namesFree i = true

instance (s : TcpServer L) (i : Input L) : Decidable (NamesFree s i) :=
  inferInstanceAs (Decidable (s.namesFree i = true))

theorem Sound.step {s t : TcpServer L} {i : Input L} (h : Sound s) (hfree : NamesFree s i)
    (hstep : s.step alloc i = some t) : Sound t := by
  cases step_change hstep with
  | advanced l a revents thread hidle hmay hadvance => exact h.entered hidle hmay hadvance
  | turned l accepted received written conn a rest object w next htodo hobject hact =>
    exact h.turned htodo hobject (World.act_turn hact)
  | asked l accepted received written conn rest htodo => exact h.asked htodo
  | removed l accepted received written conn rest object htodo hobject =>
    refine h.removed htodo hobject ?_
    have hall : ∀ other, s.connections_ object.name_ = some other → other = conn := by
      simpa [NamesFree, TcpServer.namesFree, htodo, hobject, Option.all_eq_true] using hfree
    cases hname : s.connections_ object.name_ with
    | none => exact .inl rfl
    | some other => exact .inr (congrArg some (hall other hname))
  | refused l received written rest htodo => exact h.refused htodo
  | accepted l sockfd address received written rest htodo hfresh hclosed =>
    refine h.accepted htodo hfresh hclosed ?_
    simpa [NamesFree, TcpServer.namesFree, htodo] using hfree
  | called conn call object hobject huser => exact h.called call hobject huser
  | adjusted _ conn object c hobject hstate hchannel => exact h.adjusted hobject hstate hchannel
  | returned l job rest htodo hjob => exact h.returned htodo hjob
  | queued _ isInLoopThread l =>
    exact h.of_plain (h.placed.queued isInLoopThread l)
      ((Works.idle l l rfl rfl (fun _ => rfl) rfl fun _ => rfl).queueInLoop isInLoopThread .other)
      ⟨rfl, rfl, rfl, rfl, rfl⟩ (by simp) (by simp) (by simp [Task.entry, Job.owns])
  | quit l isInLoopThread => exact h.of_idle (TcpServer.works_quit s l isInLoopThread) ⟨rfl, rfl, rfl, rfl, rfl⟩
  | kept _ held =>
    exact h.of_idle (Works.idle s.loop_ s.loop_ rfl rfl (fun _ => rfl) rfl fun _ => rfl) ⟨rfl, rfl, rfl, rfl, rfl⟩
  | destroyed conn object hobject howned => exact h.destroyed hobject howned

/-- The ownership protocol of connections across loops. The functors of a connection are
queued on its own loop, removals are left to the base loop, and `connections_` only
changes in acts of the base loop's thread. `connectEstablished` has run for each
connection that is dispatched, listed for dispatch or to be destroyed. A connection
is owned as long as its poller knows its channel or a pass still lists it. -/
structure OwnershipProtocol (alloc : Nat → Bool) (s : TcpServer L) : Prop where
  own_loop : ∀ l conn functor, .connection conn functor ∈ (s.threads l).queue → s.home conn = some l
  base_loop : ∀ l conn, .removeConnectionInLoop conn ∈ s.work l → l = s.loop_
  mutation : ∀ i t, s.step alloc i = some t → t.connections_ ≠ s.connections_ →
    ∃ accepted received written, i = .act s.loop_ accepted received written
  established_dispatch : ∀ l conn, lists conn (s.threads l).at_ = true → s.Established conn
  established_destroy : ∀ l conn, .connection conn (.call .connectDestroyed) ∈ s.work l → s.Established conn
  owned_registered : ∀ conn object, s.objects conn = some object → object.conn.channel_.index_ ≠ .kNew →
    s.owned conn = true
  owned_listed : ∀ l conn, lists conn (s.threads l).at_ = true → s.owned conn = true

/-- The map only changes when a connection is taken or removed, on the base loop. -/
theorem Placed.mutation {s t : TcpServer L} {i : Input L} (h : Placed s) (hstep : s.step alloc i = some t)
    (hchanged : t.connections_ ≠ s.connections_) :
    ∃ accepted received written, i = .act s.loop_ accepted received written := by
  cases step_change hstep with
  | removed l accepted received written conn rest object htodo =>
    obtain ⟨rfl, _⟩ := h.head htodo
    exact ⟨accepted, received, written, rfl⟩
  | accepted l sockfd address received written rest htodo =>
    obtain rfl : l = s.loop_ := h.head htodo
    exact ⟨some (sockfd, address), received, written, rfl⟩
  | turned l accepted received written conn a rest object w next =>
    exact absurd (TcpServer.sameData_resume s l conn object w _).connections_ hchanged
  | called conn call object =>
    exact absurd (TcpServer.sameData_resume s object.loop_ conn object _ _).connections_ hchanged
  | asked l accepted received written conn rest =>
    exact absurd (TcpServer.sameData_removeConnection s l conn rest).connections_ hchanged
  | advanced | refused | adjusted | returned | queued | quit | kept | destroyed => exact absurd rfl hchanged

omit [DecidableEq L] in
/-- A connection for which something else than `connectEstablished` is ahead, or which
its poller knows, has been established. -/
theorem Sound.established {s : TcpServer L} {conn : Nat} {object : Object L} (h : Sound s)
    (hobject : s.objects conn = some object)
    (hpast : object.conn.channel_.index_ ≠ .kNew ∨
      ∃ a ∈ acts conn (s.work object.loop_), a ≠ .call .connectEstablished) : s.Established conn := by
  refine ⟨object, hobject, ?_⟩
  cases (h.kept conn object hobject).stage with
  | connecting _ hnew hahead =>
    rcases hpast with hindex | ⟨a, hmem, hne⟩
    · exact absurd hnew hindex
    · rw [hahead] at hmem
      exact absurd (List.mem_singleton.mp hmem) hne
  | up hlog => exact hlog
  | down hlog => exact hlog

theorem Sound.ownershipProtocol {s : TcpServer L} (h : Sound s) : OwnershipProtocol alloc s := by
  refine ⟨?_, ?_, ?_, ?_, ?_, ?_, ?_⟩
  · intro l conn functor hmem
    exact h.placed.proper l _ (List.mem_append_right _ (List.mem_map_of_mem hmem))
  · intro l conn hmem
    exact (h.placed.proper l _ hmem).1
  · exact fun i t hstep hchanged => h.placed.mutation hstep hchanged
  · intro l conn hlists
    rw [lists_iff_awaits] at hlists
    obtain ⟨object, hobject, _, hindex⟩ := h.listed l conn hlists
    exact h.established hobject (.inl hindex)
  · intro l conn hmem
    obtain ⟨object, hobject, rfl⟩ := Option.map_eq_some_iff.mp (h.placed.proper l _ hmem)
    exact h.established hobject (.inr ⟨.call .connectDestroyed, mem_acts.mpr hmem, by simp⟩)
  · exact fun conn object hobject hindex => h.owned_of_index hobject hindex
  · intro l conn hlists
    rw [lists_iff_awaits] at hlists
    obtain ⟨object, hobject, _, hindex⟩ := h.listed l conn hlists
    exact h.owned_of_index hobject hindex

/-- The ownership protocol holds in every state that a server reaches by steps that find
the names they use free. -/
theorem ownership_protocol_when_names_free (loop_ : L) (loops_ : List L) (writeCompleteCallback_ : Bool)
    {s : TcpServer L}
    (hrun : (server L alloc).Steps NamesFree (.construct loop_ loops_ writeCompleteCallback_) s) :
    OwnershipProtocol alloc s :=
  (hrun.invariant (fun _ _ _ h hfree hstep => h.step hfree hstep)
    (construct_sound loop_ loops_ writeCompleteCallback_)).ownershipProtocol

/-- A server with a base loop and an io loop accepts a connection, which its peer closes
while the base loop is between two rounds, and which is then removed and destroyed. -/
def acceptedAndClosed : List (Input Bool) :=
  let base (a : Advance Handler) : Input Bool := .advance false a fun _ => EPOLLIN
  let io (a : Advance Handler) : Input Bool := .advance true a fun _ => EPOLLIN
  let act (l : Bool) : Input Bool := .act l none (.data []) (.bytes 0)
  [base .enter, base .test, io .enter, io .test, base (.poll [.channel .acceptor]), base .dispatch,
    .act false (some (5, 7)) (.data []) (.bytes 0), io (.poll [.wakeupChannel]), io .dispatch, io .beginFunctors,
    io .swap, io .take, act true, .userReturns true, io .returned, io .endFunctors, io .test,
    io (.poll [.channel (.connection 7)]), io .dispatch, act true, .userReturns true, act true, act true,
    base .handled, base .beginFunctors, base .swap, base .take, act false, base .returned, io .handled,
    io .beginFunctors, io .swap, io .take, act true, act true]

theorem ownership_protocol_when_names_free_closed :
    ∃ s, (server Bool fun _ => true).run (.construct false [true] false) acceptedAndClosed = some s ∧
      OwnershipProtocol (fun _ => true) s := by
  have hruns : ((server Bool fun _ => true).run (.construct false [true] false)
      acceptedAndClosed).isSome = true := by decide +kernel
  obtain ⟨s, hrun⟩ := Option.isSome_iff_exists.mp hruns
  exact ⟨s, hrun, ownership_protocol_when_names_free false [true] false
    (Machine.steps_of_run hrun (by decide +kernel))⟩

/-- A server with one loop takes a connection that stays, while others come and go until
`nextConnId_` has wrapped around, and then one more. -/
def overrun : List (Input Unit) := opens ++ (List.replicate (2 ^ 32 - 1) visit).flatten ++ arrives 2

/-- The new connection takes the name of the first, which nobody owns any more while the
poller still knows its channel. -/
theorem ownership_protocol_when_names_free_overrun :
    ∃ s, (server Unit fun _ => true).run (.construct () [] false) overrun = some s ∧
      ¬ OwnershipProtocol (fun _ => true) s := by
  obtain ⟨s₁, hopens, first, hname, hindex, hrest₁, hid₁, hheld₁⟩ := run_opens
  obtain ⟨s₂, hvisits, hrest₂, hid₂, hheld₂⟩ := run_visits (2 ^ 32 - 1) hrest₁
  have hwrapped : first.name_ = s₂.nextConnId_ := by
    rw [hid₂, hid₁, hname]
    decide
  obtain ⟨s₃, harrives, hobject, howned⟩ := run_takesName s₂ first hwrapped (hheld₂.trans hheld₁)
  rw [hrest₂] at harrives
  refine ⟨s₃, Machine.run_trans (Machine.run_trans hopens hvisits) harrives, fun hprotocol => ?_⟩
  have hkept := hprotocol.owned_registered 1 first hobject (by rw [hindex]; simp)
  rw [howned] at hkept
  cases hkept

end muduo.tcp_server
