import Muduo.TcpConnection.Lifecycle

open transition
open muduo.kernel muduo.buffer muduo.epoll muduo.event_loop

namespace muduo.tcp_connection

variable {T : Type}

/-- Whether a step lets the teardown complete: `connectDestroyed` does not find the
connection shutting down, and no other thread stores `kDisconnecting` over
`kDisconnected`. -/
def System.completes (s : System T) : Input T → Bool
  | .act _ _ => match s.todo with
    | .call .connectDestroyed :: _ => s.conn.state_ != .kDisconnecting
    | _ => true
  | .store _ => s.conn.state_ != .kDisconnected
  | _ => true

def Completes (s : System T) (i : Input T) : Prop := Spares false s i ∧ s.completes i = true

instance (s : System T) (i : Input T) : Decidable (Completes s i) :=
  inferInstanceAs (Decidable (_ ∧ _))

/-- `connectDestroyed` has completed: removing the channel is its last action, and
nothing else removes it. -/
def Destroyed (s : System T) : Prop := Event.removed ∈ s.log

/-- The teardown of a connection is complete: it is disconnected, its channel is
interested in nothing and unknown to the poller, and user code has been told once
that it is up and once that it is down. -/
structure TornDown (s : System T) : Prop where
  state_eq : s.conn.state_ = .kDisconnected
  isNoneEvent : s.conn.channel_.isNoneEvent = true
  index_eq : s.conn.channel_.index_ = .kNew
  hasChannel : s.poller.hasChannel s.conn.channel_ = false
  interest : s.poller.interest s.conn.channel_.fd_ = none
  connections : (callbacks s.log).filter (fun c => c matches .connection _) =
    [.connection true, .connection false]

/-- What holds of an established connection on its way down. -/
structure Ending (s : System T) : Prop where
  announced : Announced false s
  agrees : Agrees s.poller s.conn.channel_
  started : s.conn.state_ ≠ .kConnecting
  state_iff : s.conn.state_ = .kDisconnected ↔ Down s
  pending : .remove ∈ s.todo → Down s ∨ .disconnect ∈ s.todo
  removed : Destroyed s → Down s ∧ s.conn.channel_.index_ = .kNew

/-- Agreement does not depend on the mask that the last `poll` has stored. -/
theorem agrees_revents {poller : EPollPoller} {channel : Channel} (h : Agrees poller channel) (revents : Mask) :
    Agrees poller { channel with revents_ := revents } := ⟨h.interest_eq, h.channels_eq⟩

theorem Phase.not_down {strict : Bool} {s : System T} (h : Phase strict s)
    (hsome : s.conn.channel_.isNoneEvent = false) : ¬ Down s := by
  cases h with
  | up _ hdown => exact hdown
  | down _ _ _ hempty => rw [hsome] at hempty; cases hempty

theorem Phase.isNoneEvent {strict : Bool} {s : System T} (h : Phase strict s) (hdown : Down s) :
    s.conn.channel_.isNoneEvent = true := by
  cases h with
  | up _ hup => exact absurd hdown hup
  | down _ _ _ hnone => exact hnone

/-- Once `connectDestroyed` has completed, so has the teardown. -/
theorem Ending.tornDown {s : System T} (h : Ending s) (hdestroyed : Destroyed s) : TornDown s := by
  obtain ⟨hdown, hindex⟩ := h.removed hdestroyed
  refine ⟨h.state_iff.mpr hdown, h.announced.phase.isNoneEvent hdown, hindex, ?_, ?_, ?_⟩
  · rw [EPollPoller.hasChannel, h.agrees.channels_eq, if_pos hindex]
    rfl
  · rw [h.agrees.interest_eq, hindex]
    rfl
  · cases h.announced.phase with
    | up _ hup => exact absurd hdown hup
    | down n tail _ _ _ _ hcallbacks htail =>
      have hnone : ∀ up, .connection up ∉ tail := by
        intro up hmem
        have hkept : .connection up ∈ tail.filter (· != .message) := List.mem_filter.mpr ⟨hmem, rfl⟩
        rcases htail with ⟨heq, _⟩ | ⟨heq, _⟩ <;> simp [heq] at hkept
      have htail' : tail.filter (fun c => c matches .connection _) = [] := by
        rw [List.filter_eq_nil_iff]
        intro c hmem
        cases c with
        | connection up => exact absurd hmem (hnone up)
        | message | close => simp
      rw [hcallbacks]
      simp [htail']

theorem Established.ending {s : System T} (h : Established s) : Ending s := by
  have hannounced := h.announced false
  cases h with
  | intro conn poller thread rest registered addr fd hchannel hagrees hqueue hrest =>
    have hlog := World.log_connectEstablished { conn, poller, queued := [], log := [] }
    have hconn := World.conn_connectEstablished { conn, poller, queued := [], log := [] }
    have hup : ¬ Down (System.established (T := T) conn poller thread rest registered) := by
      simp [Down, System.established, hlog]
    refine ⟨hannounced, ?_, ?_, ?_, ?_, ?_⟩
    · exact (Confined.connectEstablished { conn, poller, queued := [], log := [] }).agrees hagrees
    · simp [System.established, hconn]
    · refine iff_of_false ?_ hup
      simp [System.established, hconn]
    · intro hmem
      rcases List.mem_cons.mp hmem with hmem | hmem
      · cases hmem
      · cases hrest _ hmem
    · simp [Destroyed, System.established, hlog]

/-- A step that leaves the state of the connection alone, and the channel too if the
connection is down. -/
theorem Ending.of_kept {s t : System T} (h : Ending s) (hannounced : Announced false t)
    (hstate : t.conn.state_ = s.conn.state_) (hindex : Down s → t.conn.channel_.index_ = s.conn.channel_.index_)
    (hagrees : Agrees t.poller t.conn.channel_) (hdown : Down t ↔ Down s) (hdestroyed : Destroyed t → Destroyed s)
    (hpending : .remove ∈ t.todo → Down s ∨ .disconnect ∈ t.todo) : Ending t := by
  refine ⟨hannounced, hagrees, ?_, ?_, ?_, ?_⟩
  · rw [hstate]
    exact h.started
  · rw [hstate, h.state_iff, hdown]
  · intro hmem
    rw [hdown]
    exact hpending hmem
  · intro hlater
    obtain ⟨hdowns, hnew⟩ := h.removed (hdestroyed hlater)
    exact ⟨hdown.mpr hdowns, (hindex hdowns).trans hnew⟩

/-- Closing a connection that is up. -/
theorem Ending.closed {s : System T} {w : World} {next rest : List Act} (h : Ending s) (hup : ¬ Down s)
    (hannounced : Announced false (s.resume w.handleClose.1 (next ++ rest)))
    (hagrees : Agrees w.poller w.conn.channel_) (hlog : w.log = s.log) :
    Ending (s.resume w.handleClose.1 (next ++ rest)) := by
  have hlog' := World.log_handleClose w
  have hconn' := World.conn_handleClose w
  have hdown : Down (s.resume w.handleClose.1 (next ++ rest)) := by
    simp [Down, System.resume, hlog']
  refine ⟨hannounced, (Confined.handleClose w).agrees hagrees, ?_, ?_, fun _ => .inl hdown, ?_⟩
  · simp [System.resume, hconn']
  · refine iff_of_true ?_ hdown
    simp [System.resume, hconn']
  · intro hdestroyed
    have hbefore : Destroyed s := by simpa [Destroyed, System.resume, hlog', hlog] using hdestroyed
    exact absurd (h.removed hbefore).1 hup

theorem Ending.pending_of_change {s t : System T} (h : Ending s) (htodo : TodoChange s.todo t.todo) :
    .remove ∈ t.todo → Down s ∨ .disconnect ∈ t.todo := by
  intro hmem
  rcases h.pending ((htodo.mem_iff rfl).mp hmem) with hdown | hlater
  · exact .inl hdown
  · exact .inr ((htodo.mem_iff rfl).mpr hlater)

/-- An act that lets the teardown complete. -/
theorem Ending.act {s : System T} {received : Received} {written : Written} {a : Act} {rest next : List Act}
    {w : World} (h : Ending s) (hcompletes : Completes s (.act received written)) (htodo : s.todo = a :: rest)
    (hannounced : Announced false (s.resume w (next ++ rest)))
    (hturn : Turn received written s.world a w next) : Ending (s.resume w (next ++ rest)) := by
  obtain ⟨hspares, hstates⟩ := hcompletes
  have hphase := h.announced.phase
  have hplain : ∀ b ∈ rest, b.isPlain = true := by
    have htail := h.announced.orderly.tail
    rw [htodo] at htail
    exact htail
  have hrest (ha : a ≠ .disconnect) (hmem : .remove ∈ rest) : Down s := by
    have hpending : .remove ∈ s.todo := by
      rw [htodo]
      exact List.mem_cons_of_mem _ hmem
    refine (h.pending hpending).resolve_right ?_
    rw [htodo]
    intro hlater
    rcases List.mem_cons.mp hlater with heq | hlater
    · exact ha heq.symm
    · cases hplain _ hlater
  have hclosed {w : World} {next : List Act} (hclose : a.closes received = true)
      (hannounced : Announced false (s.resume w.handleClose.1 (next ++ rest)))
      (hchannel : w.conn.channel_ = s.conn.channel_) (hpoller : w.poller = s.poller) (hlog : w.log = s.log) :
      Ending (s.resume w.handleClose.1 (next ++ rest)) := by
    have hup := hphase.not_down (hphase.isNoneEvent_of_closes hspares htodo hclose)
    exact h.closed hup hannounced (by rw [hchannel, hpoller]; exact h.agrees) hlog
  have hkept {w : World} {next : List Act} (more : List Event)
      (hannounced : Announced false (s.resume w (next ++ rest))) (hstate : w.conn.state_ = s.conn.state_)
      (hchannel : Down s → w.conn.channel_ = s.conn.channel_) (hagrees : Agrees w.poller w.conn.channel_)
      (hlog : w.log = s.log ++ more) (hmore : .setState .kDisconnected ∉ more ∧ .removed ∉ more)
      (ha : a ≠ .disconnect) (hnext : .remove ∉ next) : Ending (s.resume w (next ++ rest)) := by
    refine h.of_kept hannounced hstate (fun hdown => congrArg Channel.index_ (hchannel hdown)) hagrees ?_ ?_ ?_
    · unfold Down
      rw [System.resume, hlog]
      exact down_append hmore.1
    · unfold Destroyed
      rw [System.resume, hlog, List.mem_append]
      exact fun hmem => hmem.resolve_right hmore.2
    · intro hmem
      exact .inl (hrest ha ((List.mem_append.mp hmem).resolve_left hnext))
  cases hturn with
  | connectEstablished => exact absurd (by rw [htodo]; simp) h.announced.orderly.settled.todo
  | connectDestroyed =>
    refine h.of_kept hannounced rfl (fun _ => rfl) h.agrees .rfl id ?_
    intro hmem
    simp only [System.completes, htodo, bne_iff_ne, ne_eq] at hstates
    by_cases hconnected : s.conn.state_ = .kConnected
    · right
      have hworld : s.world.conn.state_ = .kConnected := hconnected
      simp [System.resume, hworld]
    · left
      rw [← h.state_iff]
      cases hstate : s.conn.state_ with
      | kDisconnected => rfl
      | kConnecting => exact absurd hstate h.started
      | kConnected => exact absurd hstate hconnected
      | kDisconnecting => exact absurd hstate hstates
  | disconnect =>
    rw [World.disconnect_fst] at hannounced ⊢
    exact hclosed rfl hannounced rfl rfl rfl
  | close => exact hclosed rfl hannounced rfl rfl rfl
  | endOfStream inputBuffer_ hdata =>
    subst hdata
    exact hclosed (w := s.world.setInputBuffer inputBuffer_) rfl hannounced rfl rfl rfl
  | remove =>
    have hdown : Down s := by
      refine (h.pending (by rw [htodo]; simp)).resolve_right ?_
      rw [htodo]
      intro hlater
      rcases List.mem_cons.mp hlater with heq | hlater
      · cases heq
      · cases hplain _ hlater
    have hconn := World.conn_perform s.world .remove
    have hdown' : Down (s.resume (s.world.perform .remove) ([] ++ rest)) := by
      unfold Down
      rw [System.resume, World.log_perform]
      exact (down_append (by simp)).mpr hdown
    have hstate : (s.resume (s.world.perform .remove) ([] ++ rest)).conn.state_ = s.conn.state_ := by
      simp [System.resume, System.world]
    refine ⟨hannounced, (Confined.perform s.world .remove).agrees h.agrees, ?_, ?_, fun _ => .inl hdown', ?_⟩
    · rw [hstate]
      exact h.started
    · rw [hstate, h.state_iff]
      exact iff_of_true hdown hdown'
    · intro _
      refine ⟨hdown', ?_⟩
      simp only [System.resume, hconn]
      rfl
  | queue functor =>
    exact hkept [.queueInLoop functor] hannounced rfl (fun _ => rfl) h.agrees rfl (by simp) (by simp)
      (by simp)
  | message bytes inputBuffer_ =>
    exact hkept [.messageCallback_] hannounced rfl (fun _ => rfl) h.agrees rfl (by simp) (by simp)
      (by simp)
  | closeCallback_ =>
    exact hkept [.closeCallback_] hannounced rfl (fun _ => rfl) h.agrees rfl (by simp) (by simp)
      (by simp)
  | transfer _ _ _ htransfers hchannel hnext hact =>
    obtain ⟨hstate, _, hconfined, ⟨events, hlog, hevents⟩, _⟩ := htransfers
    refine hkept events hannounced hstate ?_ (hconfined.agrees h.agrees) hlog ⟨?_, ?_⟩ hact.2.2.1 ?_
    · intro hdown
      have hnone := hphase.isNoneEvent hdown
      apply hchannel hnone
      rintro data rfl
      simpa [Spares, System.spares, htodo, hnone] using hspares
    · intro hmem
      cases hevents _ hmem
    · intro hmem
      cases hevents _ hmem
    · rcases hnext with rfl | rfl | rfl | ⟨functor, _, rfl⟩ <;> simp

/-- Each step that lets the teardown complete keeps all of this. -/
theorem Ending.step [DecidableEq T] {alloc : Nat → Bool} {sameLoop : Bool} {s t : System T} {i : Input T}
    (h : Ending s) (hcompletes : Completes s i) (hstep : s.step alloc sameLoop i = some t) : Ending t := by
  have hannounced := h.announced.step hcompletes.1 hstep
  cases step_control hstep with
  | quiet _ _ hstate hchannel _ hpoller hlog htodo _ =>
    obtain ⟨revents, hchannel⟩ := hchannel
    have hdown : Down t ↔ Down s := by
      unfold Down
      rcases hlog with hlog | ⟨buf, hlog⟩ <;> rw [hlog]
      exact down_append (by simp)
    refine h.of_kept hannounced hstate (fun _ => by rw [hchannel]) ?_ hdown ?_ (h.pending_of_change htodo)
    · rw [hchannel, hpoller]
      exact agrees_revents h.agrees revents
    · unfold Destroyed
      rcases hlog with hlog | ⟨buf, hlog⟩ <;> simp [hlog]
  | shut _ _ hconn hpoller hlog htodo _ hi =>
    have hnot : s.conn.state_ ≠ .kDisconnected := by
      rcases hi with hconnected | ⟨caller, rfl⟩
      · simp [hconnected]
      · simpa [Completes, System.completes] using hcompletes.2
    have hup : ¬ Down s := fun hdown => hnot (h.state_iff.mpr hdown)
    have hdown : Down t ↔ Down s := by
      unfold Down
      rw [hlog]
      exact down_append (by simp)
    refine ⟨hannounced, ?_, ?_, ?_, ?_, ?_⟩
    · rw [hconn, hpoller]
      exact h.agrees
    · simp [hconn]
    · rw [hdown]
      refine iff_of_false ?_ hup
      simp [hconn]
    · rw [hdown]
      exact h.pending_of_change htodo
    · intro hdestroyed
      have hbefore : Destroyed s := by simpa [Destroyed, hlog] using hdestroyed
      exact absurd (h.removed hbefore).1 hup
  | act received written a rest w next htodo hact =>
    exact h.act hcompletes htodo hannounced (World.act_turn hact)

/-- Every established connection is announced down. In every run in which each step
lets the teardown complete, whatever has started the teardown, it is complete
whenever `connectDestroyed` is. -/
theorem torn_down_when_destroyed [DecidableEq T] {alloc : Nat → Bool} {sameLoop : Bool} {s₀ s : System T}
    (hstart : Established s₀) (hrun : (system T alloc sameLoop).Steps Completes s₀ s)
    (hdestroyed : Destroyed s) : TornDown s := by
  have hending := hrun.invariant (fun _ _ _ h hcompletes hstep => h.step hcompletes hstep) hstart.ending
  exact hending.tornDown hdestroyed

/-- The loop wakes up and runs the `connectDestroyed` that is queued first. -/
def runsDestroyed (acts : Nat) : List (Input Unit) :=
  dispatchNext [.wakeupChannel] 0 ++ takeNext ++ List.replicate acts (.act (.data []) (.bytes 0))

instance (s : System T) : Decidable (Destroyed s) := inferInstanceAs (Decidable (_ ∈ _))

theorem torn_down_when_destroyed_closed :
    ∃ s, (system Unit (fun _ => true) false).run justEstablished
      (peerCloses ++ takeNext ++ List.replicate 2 (.act (.data []) (.bytes 0))) = some s ∧ TornDown s := by
  have hruns : ((system Unit (fun _ => true) false).run justEstablished
      (peerCloses ++ takeNext ++ List.replicate 2 (.act (.data []) (.bytes 0)))).map
        (fun s => decide (Destroyed s)) = some true := by
    decide +kernel
  obtain ⟨s, hrun, hdestroyed⟩ := Option.map_eq_some_iff.mp hruns
  have hcompletes : (system Unit (fun _ => true) false).Along Completes justEstablished
      (peerCloses ++ takeNext ++ List.replicate 2 (.act (.data []) (.bytes 0))) := by
    decide +kernel
  exact ⟨s, hrun, torn_down_when_destroyed established_justEstablished (Machine.steps_of_run hrun hcompletes)
    (by simpa using hdestroyed)⟩

/-- User code shuts the connection down, and then the server is destroyed. -/
def destroyBehindShutdown : List (Input Unit) :=
  [.ownCall .shutdown, .act (.data []) (.bytes 0), .userReturns, .advance .returned 0, .destroyServer] ++
    runsDestroyed 2

/-- `connectDestroyed` has then removed the channel of a connection that has never
been announced down, is still shutting down, and still interested in reading. -/
theorem not_torn_down_after_shutdown :
    ∃ s, (system Unit (fun _ => true) false).run justEstablished destroyBehindShutdown = some s ∧
      Destroyed s ∧ s.conn.state_ = .kDisconnecting ∧ callbacks s.log = [.connection true] ∧ ¬ TornDown s := by
  have hruns : ((system Unit (fun _ => true) false).run justEstablished destroyBehindShutdown).map
      (fun s => (decide (Destroyed s), s.conn.state_, callbacks s.log)) =
        some (true, .kDisconnecting, [.connection true]) := by
    decide +kernel
  obtain ⟨s, hrun, hend⟩ := Option.map_eq_some_iff.mp hruns
  obtain ⟨hdestroyed, hstate, hcallbacks⟩ : decide (Destroyed s) = true ∧ s.conn.state_ = .kDisconnecting ∧
      callbacks s.log = [.connection true] := by simpa using hend
  refine ⟨s, hrun, by simpa using hdestroyed, hstate, hcallbacks, ?_⟩
  intro htorn
  have hstate' := htorn.state_eq
  rw [hstate] at hstate'
  cases hstate'

end muduo.tcp_connection
