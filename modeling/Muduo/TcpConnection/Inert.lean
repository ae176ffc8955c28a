import Muduo.TcpConnection.Lifecycle
import Muduo.Library.Record

open transition record
open muduo.kernel muduo.buffer muduo.epoll muduo.event_loop

namespace muduo.tcp_connection

variable {T : Type}

/-- Output, and what serves it: a call of `write` or `sendfile`, an append to the
output buffer, a queued write-complete or high-water callback, and an interest in
some event. A registration with an empty mask, which a second `disableAll` makes, is none. -/
def Event.isOutput : Event → Bool
  | .setState _ => false
  | .update events_ => events_ != kNoneEvent
  | .removed => false
  | .send _ => false
  | .sendInLoop _ => false
  | .write _ _ => true
  | .sendfile _ _ _ _ => true
  | .append _ => true
  | .shutdownWrite => false
  | .queueInLoop functor => functor.isNotice
  | .connectionCallback_ _ => false
  | .messageCallback_ => false
  | .closeCallback_ => false

/-- Once the connection is disconnected, nothing is put out. -/
def InertForOutput (log : List Event) : Prop :=
  NeverAfter (· = .setState .kDisconnected) (fun event => event.isOutput = true) log

/-- Whether a step leaves a connection inert whose channel is interested in nothing:
a call of `sendInLoop` finds bytes in the output buffer and brings none, and one of
`sendFileInLoop` finds bytes there or a connection that is shutting down. -/
def System.leavesInert (s : System T) : Input T → Bool
  | .act _ _ => match s.todo with
    | .call (.sendInLoop data) :: _ => !s.conn.channel_.isNoneEvent ||
        (data.chars.isEmpty && decide (0 < s.conn.outputBuffer_.readableBytes))
    | .call (.sendFileInLoop _ _ _) :: _ => !s.conn.channel_.isNoneEvent ||
        (s.conn.state_ == .kDisconnecting || decide (0 < s.conn.outputBuffer_.readableBytes))
    | _ => true
  | _ => true

def LeavesInert (s : System T) (i : Input T) : Prop := s.leavesInert i = true

instance (s : System T) (i : Input T) : Decidable (LeavesInert s i) :=
  inferInstanceAs (Decidable (s.leavesInert i = true))

/-- What holds of an established connection that is left inert. -/
structure Inert (s : System T) : Prop where
  orderly : Orderly s
  isNoneEvent : Down s → s.conn.channel_.isNoneEvent = true
  queue : Down s → .queue .writeCompleteCallback_ ∉ s.todo
  log : InertForOutput s.log

/-- The world after a step of a connection whose channel is interested in nothing:
nothing was put out, the channel is still interested in nothing, and no
write-complete callback is about to be queued. -/
structure Silent (w w' : World) (next : List Act) : Prop where
  log : ∃ more, w'.log = w.log ++ more ∧ ∀ event ∈ more, event.isOutput = false
  isNoneEvent : w'.conn.channel_.isNoneEvent = true
  queue : .queue .writeCompleteCallback_ ∉ next

theorem Silent.of_log {w w' : World} {next : List Act} (more : List Event) (hlog : w'.log = w.log ++ more)
    (hmore : ∀ event ∈ more, event.isOutput = false) (hnone : w.conn.channel_.isNoneEvent = true)
    (hchannel : w'.conn.channel_ = w.conn.channel_) (hnext : .queue .writeCompleteCallback_ ∉ next) :
    Silent w w' next := by
  refine ⟨⟨more, hlog, hmore⟩, ?_, hnext⟩
  rw [hchannel]
  exact hnone

theorem silent_handleClose (w : World) (next : List Act) (hnext : .queue .writeCompleteCallback_ ∉ next) :
    Silent w w.handleClose.1 next := by
  refine ⟨⟨_, World.log_handleClose w, ?_⟩, ?_, hnext⟩
  · simp [Event.isOutput]
  · rw [World.conn_handleClose]
    rfl

/-- Disconnected, `sendInLoop` is silent if it finds a backlog and is given nothing. -/
theorem silent_sendInLoop {alloc : Nat → Bool} {w w' : World} {data : Text} {written : Written}
    (hnone : w.conn.channel_.isNoneEvent = true) (hdata : data.chars = [])
    (hbacklog : 0 < w.conn.outputBuffer_.readableBytes)
    (h : w.sendInLoop alloc data written = some w') : Silent w w' [] := by
  have hbuffered : ¬ ((w.emit (.sendInLoop data)).conn.channel_.isWriting = false ∧
      (w.emit (.sendInLoop data)).conn.outputBuffer_.readableBytes = 0) :=
    fun hdirect => absurd hdirect.2 (Nat.pos_iff_ne_zero.mp hbacklog)
  have hkept : w.emit (.sendInLoop data) = w' := by
    simpa only [World.sendInLoop, if_neg hbuffered, World.keep, hdata, List.length_nil, Nat.lt_irrefl, if_false,
      Option.some.injEq] using h
  subst hkept
  exact .of_log [.sendInLoop data] rfl (by simp [Event.isOutput]) hnone rfl (by simp)

/-- Disconnected, `sendFileInLoop` is silent if it finds a backlog, which makes it
queue itself again, or a connection that is shutting down. -/
theorem silent_sendFileInLoop {w w' : World} {fileDescriptor : Nat} {offset : Int} {count : Nat}
    {written : Written} {next : List Act} (hnone : w.conn.channel_.isNoneEvent = true)
    (hquiet : w.conn.state_ = .kDisconnecting ∨ 0 < w.conn.outputBuffer_.readableBytes)
    (h : w.sendFileInLoop fileDescriptor offset count written = some (w', next)) : Silent w w' next := by
  have hnot (hempty : w.conn.outputBuffer_.readableBytes = 0) (hstate : w.conn.state_ ≠ .kDisconnecting) :
      Silent w w' next := by
    have hbacklog := hquiet.resolve_left hstate
    omega
  cases World.sendFileInLoop_cases h with
  | down => exact .of_log [] (by simp) (by simp) hnone rfl (by simp)
  | busy =>
    refine .of_log [] (by simp) (by simp) hnone rfl ?_
    unfold World.requeue
    split <;> simp
  | bytes n hstate hdirect => exact hnot hdirect.2 hstate
  | error errno hstate hdirect => exact hnot hdirect.2 hstate

theorem silent_shutdownInLoop {w : World} (hnone : w.conn.channel_.isNoneEvent = true) :
    Silent w w.shutdownInLoop [] := by
  unfold World.shutdownInLoop
  split
  · exact .of_log [] (by simp) (by simp) hnone rfl (by simp)
  · exact .of_log [.shutdownWrite] rfl (by simp [Event.isOutput]) hnone rfl (by simp)

theorem silent_refl {w : World} {next : List Act} (hnone : w.conn.channel_.isNoneEvent = true)
    (hnext : .queue .writeCompleteCallback_ ∉ next) : Silent w w next :=
  .of_log [] (by simp) (by simp) hnone rfl hnext

/-- A connection that is down and left inert is silent in each of its acts. -/
theorem Inert.silent {alloc : Nat → Bool} {s : System T} {received : Received} {written : Written} {a : Act}
    {rest next : List Act} {w : World} (h : Inert s) (hdown : Down s)
    (hleaves : LeavesInert s (.act received written)) (htodo : s.todo = a :: rest)
    (hact : s.world.act alloc received written a = some (w, next)) : Silent s.world w next := by
  have hnone : s.world.conn.channel_.isNoneEvent = true := h.isNoneEvent hdown
  have hnone' : s.conn.channel_.isNoneEvent = true := hnone
  simp only [LeavesInert, System.leavesInert, htodo] at hleaves
  cases a with
  | call functor =>
    cases functor with
    | connectEstablished => exact absurd (by rw [htodo]; simp) h.orderly.settled.todo
    | connectDestroyed =>
      cases hact
      exact silent_refl hnone (by split <;> simp)
    | sendInLoop data =>
      obtain ⟨sent, hsend, heq⟩ := Option.map_eq_some_iff.mp hact
      cases heq
      obtain ⟨hdata, hbacklog⟩ : data.chars = [] ∧ 0 < s.conn.outputBuffer_.readableBytes := by
        simpa [hnone'] using hleaves
      exact silent_sendInLoop hnone hdata hbacklog hsend
    | sendFileInLoop fileDescriptor offset count =>
      have hquiet : s.conn.state_ = .kDisconnecting ∨ 0 < s.conn.outputBuffer_.readableBytes := by
        simpa [hnone'] using hleaves
      exact silent_sendFileInLoop hnone hquiet hact
    | shutdownInLoop =>
      cases hact
      exact silent_shutdownInLoop hnone
    | writeCompleteCallback_ | highWaterMarkCallback_ =>
      cases hact
      exact silent_refl hnone (by simp)
  | callback callback =>
    cases callback with
    | closeCallback_ =>
      cases hact
      exact silent_handleClose _ _ (by simp)
    | errorCallback_ =>
      cases hact
      exact silent_refl hnone (by simp)
    | readCallback_ =>
      rcases World.handleRead_cases hact with ⟨inputBuffer_, rfl, rfl⟩ |
        ⟨bytes, inputBuffer_, _, ⟨_, hclose⟩ | ⟨_, rfl, rfl⟩⟩
      · exact .of_log [] (by simp) (by simp) hnone rfl (by simp)
      · cases hclose
        obtain ⟨hlog, hempty, hqueue⟩ := silent_handleClose (s.world.setInputBuffer inputBuffer_)
          [.user, .closeCallback_] (by simp)
        exact ⟨hlog, hempty, hqueue⟩
      · exact .of_log [.messageCallback_] rfl (by simp [Event.isOutput]) hnone rfl (by simp)
    | writeCallback_ =>
      simp only [World.act, World.handleWrite, isWriting_of_isNoneEvent hnone, Bool.false_eq_true, if_false]
        at hact
      cases hact
      exact silent_refl hnone (by simp)
  | drained =>
    cases hact
    unfold World.drained
    split
    · exact silent_shutdownInLoop hnone
    · exact silent_refl hnone (by simp)
  | disconnect =>
    cases hact
    exact silent_handleClose _ _ (by simp)
  | remove =>
    cases hact
    refine ⟨⟨[.removed], by simp, by simp [Event.isOutput]⟩, ?_, by simp⟩
    rw [World.conn_perform]
    exact hnone
  | queue functor =>
    cases hact
    have hpending : .queue functor ∈ s.todo := by rw [htodo]; simp
    refine .of_log [.queueInLoop functor] rfl ?_ hnone rfl (by simp)
    have hresend := h.orderly.requeue functor hpending
    have hnot : functor ≠ .writeCompleteCallback_ := by
      rintro rfl
      exact h.queue hdown hpending
    intro event hmem
    rw [List.mem_singleton.mp hmem]
    cases functor <;> first | rfl | exact absurd rfl hnot | cases hresend
  | closeCallback_ =>
    cases hact
    exact .of_log [.closeCallback_] rfl (by simp [Event.isOutput]) hnone rfl (by simp)
  | user | removeConnection => cases hact

/-- A turn records nothing that is put out behind a disconnection of its own, which
leaves the channel interested in nothing and nothing to be queued. -/
theorem Turn.disconnects {received : Received} {written : Written} {w w' : World} {a : Act} {next : List Act}
    (h : Turn received written w a w' next) : ∃ more, w'.log = w.log ++ more ∧ InertForOutput more ∧
      (.setState .kDisconnected ∈ more →
        w'.conn.channel_.isNoneEvent = true ∧ ∀ functor, .queue functor ∉ next) := by
  have hclose (w : World) : InertForOutput
      [.setState .kDisconnected, .update kNoneEvent, .connectionCallback_ false] := by
    apply neverAfter_of_none
    simp [Event.isOutput]
  have hnone (w : World) : w.handleClose.1.conn.channel_.isNoneEvent = true := by
    rw [World.conn_handleClose]
    rfl
  have hother (more : List Event) (hlog : w'.log = w.log ++ more) (hmore : .setState .kDisconnected ∉ more) :
      ∃ more, w'.log = w.log ++ more ∧ InertForOutput more ∧
        (.setState .kDisconnected ∈ more →
          w'.conn.channel_.isNoneEvent = true ∧ ∀ functor, .queue functor ∉ next) := by
    refine ⟨more, hlog, neverAfter_of_no_first ?_, fun hmem => absurd hmem hmore⟩
    intro event hmem heq
    exact hmore (heq ▸ hmem)
  cases h with
  | connectEstablished => exact hother _ (World.log_connectEstablished w) (by simp)
  | connectDestroyed => exact hother [] (by simp) (by simp)
  | disconnect =>
    exact ⟨_, World.log_handleClose w, hclose w, fun _ => ⟨hnone w, by simp⟩⟩
  | remove => exact hother _ (World.log_perform w .remove) (by simp)
  | queue functor => exact hother _ (World.log_queueInLoop w functor) (by simp)
  | close => exact ⟨_, World.log_handleClose w, hclose w, fun _ => ⟨hnone w, by simp⟩⟩
  | endOfStream inputBuffer_ =>
    exact ⟨_, World.log_handleClose (w.setInputBuffer inputBuffer_), hclose w, fun _ => ⟨hnone _, by simp⟩⟩
  | message => exact hother [.messageCallback_] rfl (by simp)
  | closeCallback_ => exact hother [.closeCallback_] rfl (by simp)
  | transfer _ _ _ htransfers =>
    obtain ⟨events, hlog, hevents⟩ := htransfers.log
    exact hother events hlog fun hmem => by cases hevents _ hmem

theorem Established.inert {s : System T} (h : Established s) : Inert s := by
  have horderly := h.orderly
  cases h with
  | intro conn poller thread rest registered addr fd hchannel hagrees hqueue hrest =>
    have hlog := World.log_connectEstablished { conn, poller, queued := [], log := [] }
    have hup : ¬ Down (System.established (T := T) conn poller thread rest registered) := by
      simp [Down, System.established, hlog]
    refine ⟨horderly, fun hdown => absurd hdown hup, fun hdown => absurd hdown hup, ?_⟩
    apply neverAfter_of_no_first
    simp [System.established, hlog]

/-- Each step that leaves the connection inert keeps all of this. -/
theorem Inert.step [DecidableEq T] {alloc : Nat → Bool} {sameLoop : Bool} {s t : System T} {i : Input T}
    (h : Inert s) (hleaves : LeavesInert s i) (hstep : s.step alloc sameLoop i = some t) : Inert t := by
  have horderly := h.orderly.step hstep
  have hquiet {t : System T} (more : List Event) (horderly : Orderly t)
      (hchannel : s.conn.channel_.isNoneEvent = true → t.conn.channel_.isNoneEvent = true)
      (htodo : TodoChange s.todo t.todo) (hlog : t.log = s.log ++ more)
      (hmore : ∀ event ∈ more, event ≠ .setState .kDisconnected ∧ event.isOutput = false) : Inert t := by
    have hdown : Down t ↔ Down s := by
      unfold Down
      rw [hlog]
      exact down_append fun hmem => (hmore _ hmem).1 rfl
    have hsilent : ∀ event ∈ more, ¬ event.isOutput = true := by
      intro event hmem
      simp [(hmore event hmem).2]
    refine ⟨horderly, fun hdowns => hchannel (h.isNoneEvent (hdown.mp hdowns)), ?_, ?_⟩
    · intro hdowns hmem
      exact h.queue (hdown.mp hdowns) ((htodo.mem_iff rfl).mp hmem)
    · rw [hlog]
      exact h.log.append (neverAfter_of_none hsilent) fun _ => hsilent
  cases step_control hstep with
  | quiet _ _ _ hchannel _ _ hlog htodo _ =>
    obtain ⟨revents, hchannel⟩ := hchannel
    have hnone (hnone : s.conn.channel_.isNoneEvent = true) : t.conn.channel_.isNoneEvent = true := by
      rw [hchannel]
      exact hnone
    rcases hlog with hlog | ⟨buf, hlog⟩
    · exact hquiet [] horderly hnone htodo (by simpa using hlog) (by simp)
    · exact hquiet _ horderly hnone htodo hlog (by simp [Event.isOutput])
  | shut _ _ hconn _ hlog htodo _ _ =>
    refine hquiet _ horderly ?_ htodo hlog (by simp [Event.isOutput])
    rw [hconn]
    exact id
  | act received written a rest w next htodo hact =>
    have hplain : ∀ functor, .queue functor ∉ rest := by
      intro functor hmem
      have htail := h.orderly.tail
      rw [htodo] at htail
      cases htail _ hmem
    by_cases hdown : Down s
    · obtain ⟨⟨more, hlog, hmore⟩, hnone, hqueue⟩ := h.silent hdown hleaves htodo hact
      refine ⟨horderly, fun _ => hnone, fun _ hmem => ?_, ?_⟩
      · rcases List.mem_append.mp hmem with hmem | hmem
        · exact hqueue hmem
        · exact hplain _ hmem
      · have hsilent : ∀ event ∈ more, ¬ event.isOutput = true := by
          intro event hmem
          simp [hmore event hmem]
        rw [System.resume, hlog]
        exact h.log.append (neverAfter_of_none hsilent) fun _ => hsilent
    · obtain ⟨more, hlog, hinert, hdisconnects⟩ := (World.act_turn hact).disconnects
      have hnow (hlater : Down (s.resume w (next ++ rest))) : .setState .kDisconnected ∈ more := by
        have hmem : .setState .kDisconnected ∈ s.log ++ more := hlog ▸ hlater
        exact (List.mem_append.mp hmem).resolve_left hdown
      refine ⟨horderly, fun hlater => (hdisconnects (hnow hlater)).1, fun hlater hmem => ?_, ?_⟩
      · rcases List.mem_append.mp hmem with hmem | hmem
        · exact (hdisconnects (hnow hlater)).2 _ hmem
        · exact hplain _ hmem
      · rw [System.resume, hlog]
        refine h.log.append hinert ?_
        rintro ⟨event, hmem, rfl⟩
        exact absurd hmem hdown

/-- A disconnected connection is inert for output. In every run whose calls of
`sendInLoop` and `sendFileInLoop` leave a connection inert that is interested in
nothing, it puts out nothing once it has been set to `kDisconnected`. -/
theorem inert_once_disconnected [DecidableEq T] {alloc : Nat → Bool} {sameLoop : Bool} {s₀ s : System T}
    (hstart : Established s₀) (hrun : (system T alloc sameLoop).Steps LeavesInert s₀ s) :
    InertForOutput s.log := by
  have hinert := hrun.invariant (fun _ _ _ h hleaves hstep => h.step hleaves hstep) hstart.inert
  exact hinert.log

/-- User code sends two bytes, and the peer closes behind that. -/
def sendBeforeClose : List (Input Unit) :=
  [.ownCall (.send payload), .act (.data []) (.bytes 2)] ++ peerCloses

theorem inert_once_disconnected_closed :
    ∃ s, (system Unit (fun _ => true) false).run justEstablished sendBeforeClose = some s ∧
      InertForOutput s.log := by
  have hruns : ((system Unit (fun _ => true) false).run justEstablished sendBeforeClose).isSome = true := by
    decide +kernel
  obtain ⟨s, hrun⟩ := Option.isSome_iff_exists.mp hruns
  have hleaves : (system Unit (fun _ => true) false).Along LeavesInert justEstablished sendBeforeClose := by
    decide +kernel
  exact ⟨s, hrun, inert_once_disconnected established_justEstablished (Machine.steps_of_run hrun hleaves)⟩

instance (log : List Event) : Decidable (InertForOutput log) :=
  inferInstanceAs (Decidable (log.Pairwise fun a b => a = .setState .kDisconnected → ¬ b.isOutput = true))

/-- A payload that is queued behind the close is written, kept, and waited for. -/
theorem not_inert_behind_close :
    ∃ s, (system Unit (fun _ => true) false).run justEstablished sendBehindClose = some s ∧
      ¬ InertForOutput s.log := by
  have hruns : ((system Unit (fun _ => true) false).run justEstablished sendBehindClose).map
      (fun s => decide (InertForOutput s.log)) = some false := by
    decide +kernel
  obtain ⟨s, hrun, hinert⟩ := Option.map_eq_some_iff.mp hruns
  exact ⟨s, hrun, by simpa using hinert⟩

end muduo.tcp_connection
