import Muduo.TcpServer.Basic
import Muduo.TcpConnection.Control

open muduo.kernel muduo.epoll
open muduo.tcp_connection (Act Functor Event TcpConnection World Turn)

namespace muduo.tcp_server

/-- The functors that are called on a connection which is up. -/
def calledUp : Functor → Bool
  | .connectEstablished => false
  | .connectDestroyed => false
  | _ => true

/-- The functors that are called on a connection which is down. -/
def calledDown : Functor → Bool
  | .connectEstablished => false
  | .sendInLoop _ => false
  | _ => true

/-- The acts that are ahead of a connection which is up. -/
def aheadUp : Act → Bool
  | .call functor => calledUp functor
  | .callback _ => true
  | .drained => true
  | .disconnect => false
  | .remove => false
  | .queue functor => functor.isResend
  | .user => true
  | .closeCallback_ => false
  | .removeConnection => false

/-- The acts that are ahead of a connection which is down. -/
def aheadDown : Act → Bool
  | .call functor => calledDown functor
  | .callback _ => true
  | .drained => true
  | .disconnect => false
  | .remove => true
  | .queue functor => functor.isResend
  | .user => true
  | .closeCallback_ => true
  | .removeConnection => true

/-- The acts by which the removal of a connection goes on. -/
def isOwed : Act → Bool
  | .call .connectDestroyed => true
  | .remove => true
  | .closeCallback_ => true
  | .removeConnection => true
  | _ => false

/-- The stages of a connection in its server: it waits for `connectEstablished`, it is
up, or it is down and on its way out. `ahead` are the acts that its loop still has to
carry out on it, those queued included, `mapped` says that it is in `connections_`
and `removing` that the base loop has yet to run `removeConnectionInLoop` for it. -/
inductive Stage (conn : TcpConnection) (log : List Event) (ahead : List Act) (mapped removing : Prop) : Prop where
  | connecting (hstate : conn.state_ = .kConnecting) (hindex : conn.channel_.index_ = .kNew)
      (hahead : ahead = [.call .connectEstablished]) (hmapped : mapped) (hremoving : ¬ removing)
  | up (hlog : .setState .kConnected ∈ log) (hstate : conn.state_ = .kConnected ∨ conn.state_ = .kDisconnecting)
      (hreading : conn.channel_.isReading = true) (hindex : conn.channel_.index_ ≠ .kNew)
      (hahead : ∀ a ∈ ahead, aheadUp a = true) (hmapped : mapped) (hremoving : ¬ removing)
  | down (hlog : .setState .kConnected ∈ log) (hstate : conn.state_ = .kDisconnected)
      (hnone : conn.channel_.isNoneEvent = true) (hahead : ∀ a ∈ ahead, aheadDown a = true)
      (howed : conn.channel_.index_ ≠ .kNew → removing ∨ ∃ a ∈ ahead, isOwed a = true)

/-- A functor that a connection's code queues keeps the connection alive. -/
theorem isShared_of_notice {functor : Functor} (h : functor.isNotice = true ∨ functor.isResend = true) :
    isShared functor = true := by
  cases functor <;> first | rfl | simp [Functor.isNotice, Functor.isResend] at h

/-- A call of user code on its own thread leaves at most the method to be run. -/
theorem ownCall_spec (w : World) (call : tcp_connection.Call) :
    (w.ownCall call).1.conn.channel_ = w.conn.channel_ ∧ (w.ownCall call).1.poller = w.poller ∧
    (w.ownCall call).1.queued = w.queued ∧
    ((w.ownCall call).2 = [] ∨ ∃ functor, functor ≠ .connectDestroyed ∧ (w.ownCall call).2 = [.call functor]) := by
  cases call <;> simp only [World.ownCall] <;> split
  all_goals first
    | exact ⟨rfl, rfl, rfl, .inl rfl⟩
    | exact ⟨rfl, rfl, rfl, .inr ⟨_, by simp, rfl⟩⟩

namespace Stage

variable {conn : TcpConnection} {log : List Event} {ahead rest next : List Act} {mapped removing : Prop}

/-- What is left behind the act of a connection is either plain or queued. -/
def Waits (rest : List Act) : Prop :=
  ∀ b ∈ rest, b.isPlain = true ∨ ∃ functor, isShared functor = true ∧ b = .call functor

theorem aheadDown_of_aheadUp (hrest : Waits rest) (hahead : ∀ b ∈ rest, aheadUp b = true) :
    ∀ b ∈ rest, aheadDown b = true := by
  intro b hmem
  have hup := hahead b hmem
  rcases hrest b hmem with hplain | ⟨functor, hshared, rfl⟩
  · cases b <;> first | rfl | cases hplain
  · cases functor <;> first | rfl | exact Bool.noConfusion hshared | exact Bool.noConfusion hup

theorem ahead_of_isNotice {functors : List Functor} (h : ∀ functor ∈ functors, functor.isNotice = true) :
    ∀ a ∈ functors.map Act.call, aheadUp a = true ∧ aheadDown a = true := by
  intro a hmem
  obtain ⟨functor, hfunctor, rfl⟩ := List.mem_map.mp hmem
  have hnotice := h functor hfunctor
  cases functor <;> first | exact ⟨rfl, rfl⟩ | cases hnotice

theorem ahead_of_isResend {functor : Functor} (h : functor.isResend = true) :
    aheadUp (.call functor) = true ∧ aheadDown (.call functor) = true := by
  cases functor <;> first | exact ⟨rfl, rfl⟩ | cases h

/-- The acts that a transfer leaves. -/
theorem ahead_of_next (hnext : next = [] ∨ next = [.drained] ∨ next = [.user] ∨
    ∃ functor : Functor, functor.isResend = true ∧ next = [.queue functor]) :
    ∀ a ∈ next, aheadUp a = true ∧ aheadDown a = true := by
  rcases hnext with rfl | rfl | rfl | ⟨functor, hresend, rfl⟩
  · simp
  · simp [aheadUp, aheadDown]
  · simp [aheadUp, aheadDown]
  · simp [aheadUp, aheadDown, hresend]

/-- A connection that closes is on its way out, because `closeCallback_` comes next. -/
theorem closed {w : World} (hlog : .setState .kConnected ∈ w.log) (hrest : ∀ b ∈ rest, aheadDown b = true) :
    Stage w.handleClose.1.conn w.handleClose.1.log ([.user, .closeCallback_] ++ rest) mapped removing := by
  have hconn := World.conn_handleClose w
  refine .down ?_ ?_ ?_ ?_ fun _ => .inr ⟨.closeCallback_, by simp, rfl⟩
  · rw [World.log_handleClose]
    exact List.mem_append_left _ hlog
  · rw [hconn]
  · rw [hconn]
    rfl
  · intro b hmem
    rcases List.mem_append.mp hmem with hmem | hmem
    · rcases List.mem_cons.mp hmem with rfl | hmem
      · rfl
      · rw [List.mem_singleton.mp hmem]
        rfl
    · exact hrest b hmem

/-- An act of the connection's code moves it through the stages. -/
theorem turn {received : Received} {written : Written} {w w' : World} {a : Act}
    (h : Stage w.conn w.log (a :: rest) mapped removing) (hturn : Turn received written w a w' next)
    (hqueued : w.queued = []) (hrest : Waits rest) :
    Stage w'.conn w'.log (next ++ rest ++ w'.queued.map .call) mapped removing := by
  cases h with
  | connecting hstate hindex hahead hmapped hremoving =>
    obtain ⟨rfl, rfl⟩ := List.cons.inj hahead
    cases hturn with
    | connectEstablished =>
      have hconn := World.conn_connectEstablished w
      have hnone : w.connectEstablished.1.queued = [] := hqueued
      refine .up ?_ (.inl ?_) ?_ ?_ ?_ hmapped hremoving
      · rw [World.log_connectEstablished]
        simp
      · rw [hconn]
      · rw [hconn]
        exact mask_enableReading_meets _
      · rw [hconn]
        exact nextIndex_ne_kNew _ _
      · rw [hnone]
        simp [aheadUp]
    | transfer _ _ _ _ _ _ hact => exact absurd rfl hact.1
  | up hlog hstate hreading hindex hahead hmapped hremoving =>
    have hlater : ∀ b ∈ rest, aheadUp b = true := fun b hmem => hahead b (List.mem_cons_of_mem _ hmem)
    have hdown := aheadDown_of_aheadUp hrest hlater
    have ha := hahead a List.mem_cons_self
    have hsame {w' : World} {next : List Act} (hlog' : ∃ more, w'.log = w.log ++ more)
        (hstate' : w'.conn.state_ = w.conn.state_)
        (hreading' : w'.conn.channel_.isReading = w.conn.channel_.isReading)
        (hindex' : w'.conn.channel_.index_ ≠ .kNew) (hnext : ∀ b ∈ next, aheadUp b = true)
        (hmore : ∀ b ∈ w'.queued.map Act.call, aheadUp b = true) :
        Stage w'.conn w'.log (next ++ rest ++ w'.queued.map .call) mapped removing := by
      obtain ⟨more, hlog'⟩ := hlog'
      refine .up ?_ ?_ (hreading'.trans hreading) hindex' ?_ hmapped hremoving
      · rw [hlog']
        exact List.mem_append_left _ hlog
      · rw [hstate']
        exact hstate
      · intro b hmem
        rcases List.mem_append.mp hmem with hmem | hmem
        · rcases List.mem_append.mp hmem with hmem | hmem
          · exact hnext b hmem
          · exact hlater b hmem
        · exact hmore b hmem
    have hclosed (w : World) (hlog : .setState .kConnected ∈ w.log) (hqueued : w.queued = []) :
        Stage w.handleClose.1.conn w.handleClose.1.log
          ([.user, .closeCallback_] ++ rest ++ w.handleClose.1.queued.map .call) mapped removing := by
      have hnone : w.handleClose.1.queued = [] := hqueued
      rw [hnone, List.map_nil, List.append_nil]
      exact closed hlog hdown
    cases hturn with
    | connectEstablished | connectDestroyed | disconnect | remove | closeCallback_ => cases ha
    | queue functor =>
      refine hsame ⟨_, rfl⟩ rfl rfl hindex (by simp) ?_
      rw [World.queued_queueInLoop, hqueued]
      simpa using (ahead_of_isResend ha).1
    | close => exact hclosed w hlog hqueued
    | endOfStream inputBuffer_ => exact hclosed (w.setInputBuffer inputBuffer_) hlog hqueued
    | message _ inputBuffer_ =>
      exact hsame ⟨_, rfl⟩ rfl rfl hindex (by simp [aheadUp]) (by simp [hqueued])
    | transfer _ _ _ htransfers _ hnext =>
      obtain ⟨hstate', hreading', _, ⟨events, hlog', _⟩, ⟨functors, hmore, hnotices⟩, hindex'⟩ := htransfers
      refine hsame ⟨events, hlog'⟩ hstate' hreading' (hindex' hindex)
        (fun b hmem => (ahead_of_next hnext b hmem).1) ?_
      rw [hmore, hqueued, List.nil_append]
      exact fun b hmem => (ahead_of_isNotice hnotices b hmem).1
  | down hlog hstate hnone hahead howed =>
    have hlater : ∀ b ∈ rest, aheadDown b = true := fun b hmem => hahead b (List.mem_cons_of_mem _ hmem)
    have ha := hahead a List.mem_cons_self
    have hsame {w' : World} {next : List Act} (hlog' : ∃ more, w'.log = w.log ++ more)
        (hstate' : w'.conn.state_ = w.conn.state_) (hchannel : w'.conn.channel_ = w.conn.channel_)
        (hnext : ∀ b ∈ next, aheadDown b = true) (hmore : ∀ b ∈ w'.queued.map Act.call, aheadDown b = true)
        (hgoes : isOwed a = true → ∃ b ∈ next, isOwed b = true) :
        Stage w'.conn w'.log (next ++ rest ++ w'.queued.map .call) mapped removing := by
      obtain ⟨more, hlog'⟩ := hlog'
      refine .down ?_ (hstate'.trans hstate) ?_ ?_ ?_
      · rw [hlog']
        exact List.mem_append_left _ hlog
      · rw [hchannel]
        exact hnone
      · intro b hmem
        rcases List.mem_append.mp hmem with hmem | hmem
        · rcases List.mem_append.mp hmem with hmem | hmem
          · exact hnext b hmem
          · exact hlater b hmem
        · exact hmore b hmem
      · rw [hchannel]
        intro hindex
        rcases howed hindex with hremoving | ⟨b, hmem, howes⟩
        · exact .inl hremoving
        · right
          rcases List.mem_cons.mp hmem with rfl | hmem
          · obtain ⟨b, hmem, howes⟩ := hgoes howes
            exact ⟨b, by simp [hmem], howes⟩
          · exact ⟨b, by simp [hmem], howes⟩
    have hclosed (w : World) (hlog : .setState .kConnected ∈ w.log) (hqueued : w.queued = []) :
        Stage w.handleClose.1.conn w.handleClose.1.log
          ([.user, .closeCallback_] ++ rest ++ w.handleClose.1.queued.map .call) mapped removing := by
      have hnothing : w.handleClose.1.queued = [] := hqueued
      rw [hnothing, List.map_nil, List.append_nil]
      exact closed hlog hlater
    cases hturn with
    | connectEstablished | disconnect => cases ha
    | connectDestroyed =>
      have hnot : ¬ w.conn.state_ = .kConnected := by simp [hstate]
      rw [if_neg hnot]
      refine hsame ⟨[], by simp⟩ rfl rfl (by simp [aheadDown]) (by simp [hqueued]) fun _ => ⟨.remove, by simp, rfl⟩
    | remove =>
      have hconn := World.conn_perform w .remove
      refine .down ?_ ?_ ?_ ?_ ?_
      · rw [World.log_perform]
        exact List.mem_append_left _ hlog
      · rw [hconn]
        exact hstate
      · rw [hconn]
        exact hnone
      · simpa [hqueued] using hlater
      · rw [hconn]
        exact fun hindex => absurd rfl hindex
    | queue functor =>
      refine hsame ⟨_, rfl⟩ rfl rfl (by simp) ?_ (fun howes => by cases howes)
      rw [World.queued_queueInLoop, hqueued]
      simpa using (ahead_of_isResend ha).2
    | close => exact hclosed w hlog hqueued
    | endOfStream inputBuffer_ => exact hclosed (w.setInputBuffer inputBuffer_) hlog hqueued
    | message _ inputBuffer_ =>
      exact hsame ⟨_, rfl⟩ rfl rfl (by simp [aheadDown]) (by simp [hqueued]) (fun howes => by cases howes)
    | closeCallback_ =>
      exact hsame ⟨_, rfl⟩ rfl rfl (by simp [aheadDown]) (by simp [hqueued])
        fun _ => ⟨.removeConnection, by simp, rfl⟩
    | transfer _ _ _ htransfers hchannel hnext hact =>
      obtain ⟨hstate', _, _, ⟨events, hlog', _⟩, ⟨functors, hmore, hnotices⟩, _⟩ := htransfers
      refine hsame ⟨events, hlog'⟩ hstate' (hchannel hnone ?_) (fun b hmem => (ahead_of_next hnext b hmem).2) ?_ ?_
      · rintro data rfl
        cases ha
      · rw [hmore, hqueued, List.nil_append]
        exact fun b hmem => (ahead_of_isNotice hnotices b hmem).2
      · intro howes
        obtain ⟨_, hdestroyed, _, hremove, _, _, hcloses, hremoves⟩ := hact
        cases a with
        | call functor => cases functor <;> first | exact absurd rfl hdestroyed | cases howes
        | remove => exact absurd rfl hremove
        | closeCallback_ => exact absurd rfl hcloses
        | removeConnection => exact absurd rfl hremoves
        | callback | drained | disconnect | queue | user => cases howes

/-- The stage depends on the connection's state, on its channel's interest and mark,
and on its acts only as far as they are ahead or owed. -/
theorem of_conn {conn' : TcpConnection} {mapped' : Prop} (h : Stage conn log ahead mapped removing)
    (hstate : conn'.state_ = conn.state_) (hevents : conn'.channel_.events_ = conn.channel_.events_)
    (hindex : conn'.channel_.index_ = conn.channel_.index_) (hmapped : mapped → mapped') :
    Stage conn' log ahead mapped' removing := by
  have hreading : conn'.channel_.isReading = conn.channel_.isReading := by simp only [Channel.isReading, hevents]
  have hnone : conn'.channel_.isNoneEvent = conn.channel_.isNoneEvent := by simp only [Channel.isNoneEvent, hevents]
  cases h with
  | connecting hstate' hindex' hahead hmapped' hremoving =>
    exact .connecting (hstate.trans hstate') (hindex.trans hindex') hahead (hmapped hmapped') hremoving
  | up hlog hstate' hreading' hindex' hahead hmapped' hremoving =>
    refine .up hlog ?_ (hreading.trans hreading') ?_ hahead (hmapped hmapped') hremoving
    · rw [hstate]
      exact hstate'
    · rw [hindex]
      exact hindex'
  | down hlog hstate' hnone' hahead howed =>
    refine .down hlog (hstate.trans hstate') (hnone.trans hnone') hahead ?_
    rw [hindex]
    exact howed

/-- A dispatch enters the callbacks of a channel that the poller knows. -/
theorem dispatched (h : Stage conn log ahead mapped removing) (hindex : conn.channel_.index_ ≠ .kNew)
    (callbacks : List EventCallback) : Stage conn log (callbacks.map .callback ++ ahead) mapped removing := by
  have hcallback {P : Act → Prop} (hP : ∀ callback, P (.callback callback)) (hahead : ∀ a ∈ ahead, P a) :
      ∀ a ∈ callbacks.map .callback ++ ahead, P a := by
    intro a hmem
    rcases List.mem_append.mp hmem with hmem | hmem
    · obtain ⟨callback, _, rfl⟩ := List.mem_map.mp hmem
      exact hP callback
    · exact hahead a hmem
  cases h with
  | connecting _ hnew => exact absurd hnew hindex
  | up hlog hstate hreading hindex hahead hmapped hremoving =>
    exact .up hlog hstate hreading hindex (hcallback (fun _ => rfl) hahead) hmapped hremoving
  | down hlog hstate hnone hahead howed =>
    refine .down hlog hstate hnone (hcallback (fun _ => rfl) hahead) fun hindex => ?_
    rcases howed hindex with hremoving | ⟨a, hmem, howes⟩
    · exact .inl hremoving
    · exact .inr ⟨a, List.mem_append_right _ hmem, howes⟩

/-- User code on the connection's own thread calls a method, or finds the connection
not connected. -/
theorem called {w : World} (h : Stage w.conn w.log ahead mapped removing) (call : tcp_connection.Call) :
    Stage (w.ownCall call).1.conn (w.ownCall call).1.log ((w.ownCall call).2 ++ ahead) mapped removing := by
  by_cases hconnected : w.conn.connected = true
  · have hstate : w.conn.state_ = .kConnected := by simpa [TcpConnection.connected] using hconnected
    cases h with
    | connecting hstate' => rw [hstate] at hstate'; cases hstate'
    | down _ hstate' => rw [hstate] at hstate'; cases hstate'
    | up hlog _ hreading hindex hahead hmapped hremoving =>
      cases call with
      | send buf =>
        simp only [World.ownCall, hconnected, if_true]
        refine .up (List.mem_append_left _ hlog) (.inl hstate) hreading hindex ?_ hmapped hremoving
        simpa [aheadUp, calledUp] using hahead
      | sendFile fileDescriptor offset count =>
        simp only [World.ownCall, hconnected, if_true]
        refine .up hlog (.inl hstate) hreading hindex ?_ hmapped hremoving
        simpa [aheadUp, calledUp] using hahead
      | shutdown =>
        simp only [World.ownCall, hconnected, if_true]
        refine .up (List.mem_append_left _ hlog) (.inr rfl) hreading hindex ?_ hmapped hremoving
        simpa [aheadUp, calledUp] using hahead
  · have hsame : w.ownCall call = (w, []) := by
      cases call <;> simp [World.ownCall, hconnected]
    rw [hsame]
    exact h

/-- The server is asked to remove the connection. -/
theorem removed {removing' : Prop} (h : Stage conn log (.removeConnection :: rest) mapped removing)
    (hremoving : removing') : Stage conn log rest mapped removing' := by
  cases h with
  | connecting _ _ hahead => cases hahead
  | up _ _ _ _ hahead => cases hahead _ List.mem_cons_self
  | down hlog hstate hnone hahead _ =>
    exact .down hlog hstate hnone (fun a hmem => hahead a (List.mem_cons_of_mem _ hmem)) fun _ => .inl hremoving

/-- The server removes the connection and queues `connectDestroyed`. -/
theorem destroying {removing' mapped' : Prop} (h : Stage conn log ahead mapped removing) (hremoving : removing) :
    Stage conn log (ahead ++ [.call .connectDestroyed]) mapped' removing' := by
  cases h with
  | connecting _ _ _ _ hnot => exact absurd hremoving hnot
  | up _ _ _ _ _ _ hnot => exact absurd hremoving hnot
  | down hlog hstate hnone hahead _ =>
    refine .down hlog hstate hnone ?_ fun _ => .inr ⟨.call .connectDestroyed, by simp, rfl⟩
    intro a hmem
    rcases List.mem_append.mp hmem with hmem | hmem
    · exact hahead a hmem
    · rw [List.mem_singleton.mp hmem]
      rfl

/-- A user callback returns. -/
theorem returned (h : Stage conn log (.user :: rest) mapped removing) : Stage conn log rest mapped removing := by
  cases h with
  | connecting _ _ hahead => cases hahead
  | up hlog hstate hreading hindex hahead hmapped hremoving =>
    exact .up hlog hstate hreading hindex (fun a hmem => hahead a (List.mem_cons_of_mem _ hmem)) hmapped hremoving
  | down hlog hstate hnone hahead howed =>
    refine .down hlog hstate hnone (fun a hmem => hahead a (List.mem_cons_of_mem _ hmem)) fun hindex => ?_
    rcases howed hindex with hremoving | ⟨a, hmem, howes⟩
    · exact .inl hremoving
    · rcases List.mem_cons.mp hmem with rfl | hmem
      · cases howes
      · exact .inr ⟨a, hmem, howes⟩

end Stage

end muduo.tcp_server
