import Muduo.TcpConnection.Control

open transition
open muduo.kernel muduo.buffer muduo.epoll muduo.event_loop

namespace muduo.tcp_connection

variable {T : Type}

/-- The state in which `connectEstablished` of a connection has just called
`connectionCallback_`; `rest` is what the surrounding body still has to do. -/
def System.established (conn : TcpConnection) (poller : EPollPoller) (thread : LoopThread Task Handler)
    (rest : List Act) (registered : Bool) : System T :=
  let (w, next) := World.connectEstablished { conn, poller, queued := [], log := [] }
  { thread
    todo := next ++ rest
    conn := w.conn
    poller := w.poller
    log := w.log
    callers := fun _ => .outside
    registered
    removals := 0
    destroys := 0 }

/-- A connection that has just been established: its channel was new to the poller,
nobody has called it, and of its functors only `connectDestroyed` may be queued. -/
inductive Established : System T → Prop where
  | intro (conn : TcpConnection) (poller : EPollPoller) (thread : LoopThread Task Handler) (rest : List Act)
      (registered : Bool) (addr fd : Nat) (hchannel : conn.channel_ = .construct addr fd)
      (hagrees : Agrees poller conn.channel_)
      (hqueue : ∀ task ∈ thread.queue, task = .other ∨ task = .connection .connectDestroyed)
      (hrest : ∀ a ∈ rest, a = .user) :
      Established (System.established conn poller thread rest registered)

theorem Established.orderly {s : System T} (h : Established s) : Orderly s := by
  cases h with
  | intro conn poller thread rest registered addr fd hchannel hagrees hqueue hrest =>
    refine ⟨?_, ?_, ⟨?_, ?_, ?_⟩⟩
    · intro a hmem
      rw [hrest a hmem]
      rfl
    · intro functor hmem
      rcases List.mem_cons.mp hmem with hmem | hmem
      · cases hmem
      · cases hrest _ hmem
    · intro hmem
      rcases List.mem_cons.mp hmem with hmem | hmem
      · cases hmem
      · cases hrest _ hmem
    · intro hmem
      rcases hqueue _ hmem with heq | heq <;> cases heq
    · intro caller heq
      cases heq

/-- The callbacks that user code and the server see of a connection. -/
inductive Callback where
  | connection (connected : Bool)
  | message
  | close
  deriving DecidableEq, Repr

def Event.callback : Event → List Callback
  | .setState _ => []
  | .update _ => []
  | .removed => []
  | .send _ => []
  | .sendInLoop _ => []
  | .write _ _ => []
  | .sendfile _ _ _ _ => []
  | .append _ => []
  | .shutdownWrite => []
  | .queueInLoop _ => []
  | .connectionCallback_ connected => [.connection connected]
  | .messageCallback_ => [.message]
  | .closeCallback_ => [.close]

def callbacks (log : List Event) : List Callback := log.flatMap Event.callback

@[simp] theorem callbacks_append (log more : List Event) :
    callbacks (log ++ more) = callbacks log ++ callbacks more := List.flatMap_append

theorem callbacks_of_isTransfer {events : List Event} (h : ∀ event ∈ events, event.isTransfer = true) :
    callbacks events = [] := by
  apply List.flatMap_eq_nil_iff.mpr
  intro event hmem
  have htransfer := h event hmem
  cases event <;> first | rfl | cases htransfer

/-- The connection has been set to `kDisconnected`. -/
def Down (s : System T) : Prop := Event.setState .kDisconnected ∈ s.log

/-- The callbacks of a connection run as they should: up, any number of messages,
then at most one down and at most one close, in this order. -/
def InOrder (log : List Event) : Prop :=
  ∃ n tail, callbacks log = .connection true :: (List.replicate n .message ++ tail) ∧
    tail <+: [.connection false, .close]

/-- Whether a step spares a connection that is down: a dispatch that closes it, or if
`strict` one that delivers a message of it, finds it interested in some event, and a
call of `sendInLoop` that finds it interested in none leaves nothing to be written
later. -/
def System.spares (strict : Bool) (s : System T) : Input T → Bool
  | .act received written => match s.todo with
    | .callback .closeCallback_ :: _ => !s.conn.channel_.isNoneEvent
    | .callback .readCallback_ :: _ => match received with
      | .data bytes => !(s.conn.channel_.isNoneEvent && (strict || bytes.isEmpty))
      | .error _ => true
    | .call (.sendInLoop data) :: _ => !(s.conn.channel_.isNoneEvent && s.world.leaves data written)
    | _ => true
  | _ => true

def Spares (strict : Bool) (s : System T) (i : Input T) : Prop := s.spares strict i = true

instance (strict : Bool) (s : System T) (i : Input T) : Decidable (Spares strict s i) :=
  inferInstanceAs (Decidable (s.spares strict i = true))

/-- A connection is up and interested in reading, or down and interested in nothing,
and its callbacks are where they should be; messages after the down notification are
ruled out if `strict`. -/
inductive Phase (strict : Bool) (s : System T) : Prop where
  | up (n : Nat) (hdown : ¬ Down s) (hreading : s.conn.channel_.isReading = true)
      (hclose : .closeCallback_ ∉ s.todo)
      (hcallbacks : callbacks s.log = .connection true :: List.replicate n .message)
  | down (n : Nat) (tail : List Callback) (hdown : Down s) (hnone : s.conn.channel_.isNoneEvent = true)
      (hstate : s.conn.state_ ≠ .kConnected) (hdisconnect : .disconnect ∉ s.todo)
      (hcallbacks : callbacks s.log =
        .connection true :: (List.replicate n .message ++ .connection false :: tail))
      (htail : tail.filter (· != .message) = [] ∧ s.todo.count .closeCallback_ ≤ 1 ∨
        tail.filter (· != .message) = [.close] ∧ .closeCallback_ ∉ s.todo)
      (hmessages : strict = true → .message ∉ tail)

/-- A step that keeps the phase. -/
theorem Phase.of_same {strict : Bool} {s t : System T} (h : Phase strict s) (hdown : Down t ↔ Down s)
    (hstate : t.conn.state_ = .kConnected → s.conn.state_ = .kConnected)
    (hreading : t.conn.channel_.isReading = s.conn.channel_.isReading)
    (hnone : s.conn.channel_.isNoneEvent = true → t.conn.channel_.isNoneEvent = true)
    (hcallbacks : callbacks t.log = callbacks s.log)
    (hclose : t.todo.count .closeCallback_ = s.todo.count .closeCallback_)
    (hdisconnect : .disconnect ∈ t.todo → .disconnect ∈ s.todo ∨ s.conn.state_ = .kConnected) :
    Phase strict t := by
  have hmem : .closeCallback_ ∈ t.todo ↔ .closeCallback_ ∈ s.todo := by
    rw [← List.count_pos_iff, ← List.count_pos_iff, hclose]
  cases h with
  | up n hup hread hpending hhistory =>
    refine .up n (fun h => hup (hdown.mp h)) (hreading.trans hread) ?_ (hcallbacks.trans hhistory)
    rw [hmem]
    exact hpending
  | down n tail hdowns hempty hnot hpending hhistory htail hmessages =>
    refine .down n tail (hdown.mpr hdowns) (hnone hempty) (fun h => hnot (hstate h)) ?_
      (hcallbacks.trans hhistory) ?_ hmessages
    · intro hlater
      rcases hdisconnect hlater with hbefore | hconnected
      · exact hpending hbefore
      · exact hnot hconnected
    · rw [hclose, hmem]
      exact htail

theorem isNoneEvent_eq_false_of_isReading {channel : Channel} (h : channel.isReading = true) :
    channel.isNoneEvent = false := by
  have hmeets : channel.events_.meets kReadEvent = true := h
  simpa [Channel.isNoneEvent] using ne_kNoneEvent_of_meets hmeets

/-- A connection is only closed while its channel is interested in some event. -/
theorem Phase.isNoneEvent_of_closes {strict : Bool} {s : System T} {received : Received} {written : Written}
    {a : Act} {rest : List Act} (h : Phase strict s) (hspares : Spares strict s (.act received written))
    (htodo : s.todo = a :: rest) (hcloses : a.closes received = true) :
    s.conn.channel_.isNoneEvent = false := by
  simp only [Spares, System.spares, htodo] at hspares
  unfold Act.closes at hcloses
  split at hcloses
  · cases h with
    | up _ _ hreading => exact isNoneEvent_eq_false_of_isReading hreading
    | down _ _ _ _ _ hdisconnect => exact absurd (by rw [htodo]; simp) hdisconnect
  · simpa using hspares
  · have hdata : received = .data [] := by simpa using hcloses
    subst hdata
    simpa using hspares
  · cases hcloses

/-- Closing a connection that is up. -/
theorem Phase.closed {strict : Bool} {s : System T} {w : World} {rest next : List Act} {a : Act}
    (h : Phase strict s)
    (hup : s.conn.channel_.isNoneEvent = false) (htodo : s.todo = a :: rest)
    (hplain : ∀ b ∈ rest, b.isPlain = true) (hlog : w.log = s.log)
    (hnext : next = [.user] ∨ next = [.user, .closeCallback_]) :
    Phase strict (s.resume w.handleClose.1 (next ++ rest)) := by
  cases h with
  | down _ _ _ hnone => rw [hup] at hnone; cases hnone
  | up n _ _ hpending hhistory =>
    have hlog' := World.log_handleClose w
    have hconn' := World.conn_handleClose w
    have hrest : .closeCallback_ ∉ rest := fun hmem => hpending (by rw [htodo]; exact List.mem_cons_of_mem _ hmem)
    have hcount : rest.count .closeCallback_ = 0 := List.count_eq_zero.mpr hrest
    refine .down n [] ?_ ?_ ?_ ?_ ?_ (.inl ⟨rfl, ?_⟩) (by simp)
    · simp [Down, System.resume, hlog']
    · simp [System.resume, hconn', Channel.isNoneEvent]
    · simp [System.resume, hconn']
    · have hplain' : .disconnect ∉ rest := fun hmem => by cases hplain _ hmem
      rcases hnext with rfl | rfl <;> simpa [System.resume] using hplain'
    · simp only [System.resume, hlog', hlog, callbacks_append, hhistory]
      rfl
    · rcases hnext with rfl | rfl <;> simp [System.resume, hcount]

theorem down_append {log more : List Event} (hmore : Event.setState .kDisconnected ∉ more) :
    Event.setState .kDisconnected ∈ log ++ more ↔ Event.setState .kDisconnected ∈ log := by
  rw [List.mem_append]
  exact ⟨fun hmem => hmem.resolve_right hmore, .inl⟩

/-- An act that spares a connection that is down keeps the phase or closes the connection. -/
theorem Phase.act {strict : Bool} {s : System T} {received : Received} {written : Written} {a : Act}
    {rest next : List Act} {w : World} (h : Phase strict s) (horderly : Orderly s)
    (hspares : Spares strict s (.act received written)) (htodo : s.todo = a :: rest)
    (hturn : Turn received written s.world a w next) : Phase strict (s.resume w (next ++ rest)) := by
  have hplain : ∀ b ∈ rest, b.isPlain = true := by
    have htail := horderly.tail
    rw [htodo] at htail
    exact htail
  have hrest : .disconnect ∉ rest := fun hmem => by cases hplain _ hmem
  have hawake (hcloses : a.closes received = true) := h.isNoneEvent_of_closes hspares htodo hcloses
  simp only [Spares, System.spares, htodo] at hspares
  have hsame {w : World} {next : List Act} (hstate : w.conn.state_ = s.conn.state_)
      (hreading : w.conn.channel_.isReading = s.conn.channel_.isReading)
      (hnone : s.conn.channel_.isNoneEvent = true → w.conn.channel_.isNoneEvent = true)
      (hlog : ∃ more, w.log = s.log ++ more ∧ callbacks more = [] ∧ Event.setState .kDisconnected ∉ more)
      (hclose : next.count .closeCallback_ = 0) (ha : a ≠ .closeCallback_)
      (hdisconnect : .disconnect ∈ next → s.conn.state_ = .kConnected) :
      Phase strict (s.resume w (next ++ rest)) := by
    obtain ⟨more, hlog, hcallbacks, hmore⟩ := hlog
    refine h.of_same ?_ (fun hconnected => hstate.symm.trans hconnected) hreading hnone ?_ ?_ ?_
    · unfold Down
      rw [System.resume, hlog]
      exact down_append hmore
    · rw [System.resume, hlog, callbacks_append, hcallbacks, List.append_nil]
    · simp only [System.resume, List.count_append, hclose, htodo, List.count_cons_of_ne ha, Nat.zero_add]
    · intro hmem
      rcases List.mem_append.mp hmem with hmem | hmem
      · exact .inr (hdisconnect hmem)
      · exact absurd hmem hrest
  cases hturn with
  | connectEstablished => exact absurd (by rw [htodo]; simp) horderly.settled.todo
  | connectDestroyed =>
    refine hsame rfl rfl id ⟨[], by simp [System.world], rfl, by simp⟩ ?_ (by simp) ?_
    · split <;> simp
    · intro hmem
      by_contra hnot
      have hnot' : ¬ s.world.conn.state_ = .kConnected := hnot
      rw [if_neg hnot'] at hmem
      simp at hmem
  | disconnect =>
    rw [World.disconnect_fst]
    exact h.closed (w := s.world) (hawake rfl) htodo hplain rfl (.inl rfl)
  | remove =>
    refine hsame (by simp [System.world]) ?_ ?_ ⟨[.removed], by simp [System.world], rfl, by simp⟩ rfl (by simp)
      (by simp)
    · rw [World.conn_perform]
      rfl
    · rw [World.conn_perform]
      exact id
  | queue functor =>
    exact hsame rfl rfl id ⟨[.queueInLoop functor], rfl, rfl, by simp⟩ rfl (by simp) (by simp)
  | close => exact h.closed (w := s.world) (hawake rfl) htodo hplain rfl (.inr rfl)
  | endOfStream inputBuffer_ hdata =>
    subst hdata
    exact h.closed (w := s.world.setInputBuffer inputBuffer_) (hawake rfl) htodo hplain rfl (.inr rfl)
  | message bytes inputBuffer_ hdata hbytes =>
    subst hdata
    have hcount : (.user :: rest).count .closeCallback_ = s.todo.count .closeCallback_ := by simp [htodo]
    have hlater : .closeCallback_ ∈ .user :: rest ↔ .closeCallback_ ∈ s.todo := by simp [htodo]
    have hdowns : Down (s.resume ((s.world.setInputBuffer inputBuffer_).emit .messageCallback_)
        (.user :: rest)) ↔ Down s := down_append (by simp)
    cases h with
    | up n hdown hreading hclose hcallbacks =>
      refine .up (n + 1) (fun h => hdown (hdowns.mp h)) hreading (fun h => hclose (hlater.mp h)) ?_
      simp only [System.resume, World.log_emit, World.log_setInputBuffer, System.world, callbacks_append,
        hcallbacks, List.replicate_succ']
      rfl
    | down n tail hdown hnone hstate hdisconnect hcallbacks htail hmessages =>
      have hlax : strict = false := by simpa [hnone, hbytes] using hspares
      refine .down n (tail ++ [.message]) (hdowns.mpr hdown) hnone hstate ?_ ?_ ?_ (by simp [hlax])
      · simpa [System.resume] using hrest
      · simp only [System.resume, World.log_emit, World.log_setInputBuffer, System.world, callbacks_append,
          hcallbacks]
        simp [callbacks, Event.callback]
      · simp only [System.resume, List.filter_append, List.cons_append, List.nil_append, hcount, hlater]
        simpa using htail
  | closeCallback_ =>
    cases h with
    | up _ _ _ hclose => exact absurd (by rw [htodo]; simp) hclose
    | down n tail hdown hnone hstate hdisconnect hcallbacks htail hmessages =>
      rcases htail with ⟨hfilter, hcount⟩ | ⟨_, hnot⟩
      · rw [htodo, List.count_cons_self] at hcount
        have hgone : .closeCallback_ ∉ rest := List.count_eq_zero.mp (by omega)
        refine .down n (tail ++ [.close]) ((down_append (by simp)).mpr hdown) hnone hstate ?_ ?_
          (.inr ⟨?_, ?_⟩) ?_
        · simpa [System.resume] using hrest
        · simp only [System.resume, World.log_emit, System.world, callbacks_append, hcallbacks]
          simp [callbacks, Event.callback]
        · rw [List.filter_append, hfilter]
          rfl
        · simpa [System.resume] using hgone
        · intro hstrict hmem
          rcases List.mem_append.mp hmem with hmem | hmem
          · exact hmessages hstrict hmem
          · simp at hmem
      · exact absurd (by rw [htodo]; simp) hnot
  | transfer _ _ _ htransfers hchannel hnext hact =>
    obtain ⟨hstate, hreading, _, ⟨events, hlog, hevents⟩, _⟩ := htransfers
    refine hsame hstate hreading ?_ ⟨events, hlog, callbacks_of_isTransfer hevents, ?_⟩ ?_ hact.2.2.2.2.2.2.1 ?_
    · intro hnone
      rw [hchannel hnone]
      · exact hnone
      · rintro data rfl
        simpa [hnone] using hspares
    · intro hmem
      cases hevents _ hmem
    · rcases hnext with rfl | rfl | rfl | ⟨functor, _, rfl⟩ <;> simp
    · rcases hnext with rfl | rfl | rfl | ⟨functor, _, rfl⟩ <;> simp

/-- Every invocation of `closeCallback_` asks the server once to remove the connection. -/
theorem Turn.count_close {received : Received} {written : Written} {w w' : World} {a : Act} {next : List Act}
    (h : Turn received written w a w' next) :
    (callbacks w'.log).count .close = (callbacks w.log).count .close + next.count .removeConnection ∧
      a ≠ .removeConnection := by
  cases h with
  | connectEstablished =>
    rw [World.log_connectEstablished, callbacks_append, List.count_append]
    exact ⟨rfl, by simp⟩
  | connectDestroyed => split <;> simp
  | disconnect =>
    rw [World.disconnect_fst, World.log_handleClose, callbacks_append, List.count_append]
    exact ⟨rfl, by simp⟩
  | remove =>
    rw [World.log_perform, callbacks_append, List.count_append]
    exact ⟨rfl, by simp⟩
  | queue functor =>
    rw [World.log_queueInLoop, callbacks_append, List.count_append]
    exact ⟨rfl, by simp⟩
  | close =>
    rw [World.log_handleClose, callbacks_append, List.count_append]
    exact ⟨rfl, by simp⟩
  | endOfStream inputBuffer_ =>
    rw [World.log_handleClose, callbacks_append, List.count_append, World.log_setInputBuffer]
    exact ⟨rfl, by simp⟩
  | message bytes inputBuffer_ =>
    rw [World.log_emit, callbacks_append, List.count_append, World.log_setInputBuffer]
    exact ⟨rfl, by simp⟩
  | closeCallback_ =>
    rw [World.log_emit, callbacks_append, List.count_append]
    exact ⟨rfl, by simp⟩
  | transfer _ _ _ htransfers _ hnext hact =>
    obtain ⟨events, hlog, hevents⟩ := htransfers.log
    have hnone : next.count .removeConnection = 0 := by
      rcases hnext with rfl | rfl | rfl | ⟨functor, _, rfl⟩ <;> simp
    rw [hlog, callbacks_append, callbacks_of_isTransfer hevents, List.append_nil, hnone]
    exact ⟨rfl, hact.2.2.2.2.2.2.2⟩

/-- What holds of an established connection that is spared when it is down. -/
structure Announced (strict : Bool) (s : System T) : Prop where
  orderly : Orderly s
  phase : Phase strict s
  removals : s.removalCount = (callbacks s.log).count .close

theorem Established.announced {s : System T} (h : Established s) (strict : Bool) : Announced strict s := by
  refine ⟨h.orderly, ?_, ?_⟩ <;> cases h with
  | intro conn poller thread rest registered addr fd hchannel hagrees hqueue hrest => _
  all_goals
    have hlog := World.log_connectEstablished { conn, poller, queued := [], log := [] }
    have hconn := World.conn_connectEstablished { conn, poller, queued := [], log := [] }
  · refine .up 0 ?_ ?_ ?_ ?_
    · simp [Down, System.established, hlog]
    · have hreading : (ChannelOp.enableReading.mask 0).meets kReadEvent = true := by decide
      simp only [System.established, hconn, Channel.isReading, hchannel]
      exact hreading
    · intro hmem
      rcases List.mem_cons.mp hmem with hmem | hmem
      · cases hmem
      · cases hrest _ hmem
    · simp only [System.established, hlog]
      rfl
  · have hnone : rest.count .removeConnection = 0 := by
      apply List.count_eq_zero.mpr
      intro hmem
      cases hrest _ hmem
    have htodo : (World.connectEstablished { conn, poller, queued := [], log := [] }).2 = [.user] := rfl
    simp only [System.removalCount, System.established, hlog, htodo, List.count_append, hnone]
    rfl

/-- Each step that spares a connection that is down keeps all of this. -/
theorem Announced.step [DecidableEq T] {strict : Bool} {alloc : Nat → Bool} {sameLoop : Bool} {s t : System T}
    {i : Input T} (h : Announced strict s) (hspares : Spares strict s i)
    (hstep : s.step alloc sameLoop i = some t) : Announced strict t := by
  obtain ⟨horderly, hphase, hremovals⟩ := h
  have horderly' := horderly.step hstep
  cases step_control hstep with
  | quiet _ _ hstate hchannel _ _ hlog htodo hcount =>
    obtain ⟨revents, hchannel⟩ := hchannel
    have hcallbacks : callbacks t.log = callbacks s.log := by
      rcases hlog with hlog | ⟨buf, hlog⟩ <;> rw [hlog]
      rw [callbacks_append]
      exact List.append_nil _
    refine ⟨horderly', ?_, ?_⟩
    · refine hphase.of_same ?_ (fun hconnected => hstate.symm.trans hconnected) ?_ ?_ hcallbacks
        (htodo.count_eq rfl) (fun hmem => .inl ((htodo.mem_iff rfl).mp hmem))
      · unfold Down
        rcases hlog with hlog | ⟨buf, hlog⟩ <;> rw [hlog]
        exact down_append (by simp)
      · rw [hchannel]
        rfl
      · rw [hchannel]
        exact id
    · rw [hcount, hcallbacks, hremovals]
  | shut _ _ hconn _ hlog htodo hcount _ =>
    have hcallbacks : callbacks t.log = callbacks s.log := by
      rw [hlog, callbacks_append]
      exact List.append_nil _
    refine ⟨horderly', ?_, by rw [hcount, hcallbacks, hremovals]⟩
    refine hphase.of_same ?_ ?_ ?_ ?_ hcallbacks (htodo.count_eq rfl)
      (fun hmem => .inl ((htodo.mem_iff rfl).mp hmem))
    · unfold Down
      rw [hlog]
      exact down_append (by simp)
    · rw [hconn]
      intro hconnected
      cases hconnected
    · rw [hconn]
    · rw [hconn]
      exact id
  | act received written a rest w next htodo hact =>
    have hturn := World.act_turn hact
    refine ⟨horderly', hphase.act horderly hspares htodo hturn, ?_⟩
    obtain ⟨hclose, hne⟩ := hturn.count_close
    have hbefore : s.removalCount = s.destroys + s.removals + rest.count .removeConnection := by
      rw [System.removalCount, htodo, List.count_cons_of_ne hne]
    have hworld : callbacks s.world.log = callbacks s.log := rfl
    rw [hworld, ← hremovals, hbefore] at hclose
    simp only [System.removalCount, System.resume, List.count_append, hclose]
    omega

/-- A connection's callbacks run up, message*, down. In every run in which each step
spares the connection once it is down, `connectionCallback_` has been called on
establishment and at most once more, `closeCallback_` at most once and only after
that, so that at most one `connectDestroyed` is queued because of it, and
`messageCallback_` only in between. -/
theorem callbacks_in_order [DecidableEq T] {alloc : Nat → Bool} {sameLoop : Bool} {s₀ s : System T}
    (hstart : Established s₀) (hrun : (system T alloc sameLoop).Steps (Spares true) s₀ s) :
    InOrder s.log ∧ s.destroys ≤ 1 := by
  obtain ⟨_, hphase, hremovals⟩ := hrun.invariant
    (fun _ _ _ h hspares hstep => h.step hspares hstep) (hstart.announced true)
  have hdestroys : s.destroys ≤ (callbacks s.log).count .close := by
    rw [← hremovals, System.removalCount]
    omega
  cases hphase with
  | up n _ _ _ hcallbacks =>
    refine ⟨⟨n, [], by rw [hcallbacks, List.append_nil], List.nil_prefix⟩, ?_⟩
    have hnone : (callbacks s.log).count .close = 0 := by
      simp [hcallbacks, List.count_replicate]
    omega
  | down n tail _ _ _ _ hcallbacks htail hmessages =>
    have hfilter : tail.filter (· != .message) = tail := by
      rw [List.filter_eq_self]
      intro c hmem
      have hne : c ≠ .message := fun heq => hmessages rfl (heq ▸ hmem)
      simpa using hne
    rw [hfilter] at htail
    have htail' : tail <+: [.close] := by
      rcases htail with ⟨rfl, _⟩ | ⟨rfl, _⟩
      · exact List.nil_prefix
      · exact List.prefix_rfl
    have hone : (callbacks s.log).count .close ≤ 1 := by
      have hlast : tail.count .close ≤ 1 := htail'.sublist.count_le _
      simpa [hcallbacks, List.count_replicate] using hlast
    refine ⟨⟨n, .connection false :: tail, hcallbacks, ?_⟩, Nat.le_trans hdestroys hone⟩
    exact List.cons_prefix_cons.mpr ⟨rfl, htail'⟩

/-- The loop of a connection in the functor `connectEstablished`. -/
def establishing : LoopThread Task Handler where
  loop := { EventLoop.construct with looping_ := true, callingPendingFunctors_ := true }
  at_ := .running (.connection .connectEstablished) []

/-- A connection that has just been established on a loop other than the base loop. -/
def justEstablished : System Unit := .established (.construct 1 5) .construct establishing [] true

theorem established_justEstablished : Established justEstablished :=
  .intro _ _ establishing [] true 1 5 rfl ⟨rfl, rfl⟩ (by simp [establishing, LoopThread.queue, Location.waiting,
    EventLoop.construct]) (by simp)

/-- The loop goes on to dispatch the given channels, the last one with the given mask. -/
def dispatchNext (activeChannels : List (Ready Handler)) (revents : Mask) : List (Input Unit) :=
  [.advance .endFunctors 0, .advance .test 0, .advance (.poll activeChannels) revents] ++
    activeChannels.map fun _ => .advance .dispatch 0

/-- The loop goes on to run the first functor that is queued. -/
def takeNext : List (Input Unit) :=
  [.advance .beginFunctors 0, .advance .swap 0, .advance .take 0]

/-- The peer closes, and the server removes the connection. -/
def peerCloses : List (Input Unit) :=
  [.userReturns, .advance .returned 0] ++ dispatchNext [.channel .connection] EPOLLIN ++
    [.act (.data []) (.bytes 0), .userReturns, .act (.data []) (.bytes 0), .act (.data []) (.bytes 0),
      .removeConnectionInLoop, .advance .handled 0]

theorem callbacks_in_order_closed :
    ∃ s, (system Unit (fun _ => true) false).run justEstablished peerCloses = some s ∧
      InOrder s.log ∧ s.destroys ≤ 1 := by
  have hruns : ((system Unit (fun _ => true) false).run justEstablished peerCloses).isSome = true := by
    decide +kernel
  obtain ⟨s, hrun⟩ := Option.isSome_iff_exists.mp hruns
  have hspares : (system Unit (fun _ => true) false).Along (Spares true) justEstablished peerCloses := by
    decide +kernel
  exact ⟨s, hrun, callbacks_in_order established_justEstablished (Machine.steps_of_run hrun hspares)⟩

/-- What user code sends in the runs that follow. -/
def payload : Text := ⟨[1, 2], by decide⟩

/-- Another thread is about to queue a payload when the peer closes. The functor runs
after that and leaves the payload to be written later, which registers the channel
again, so that its hang-up is dispatched. -/
def sendBehindClose : List (Input Unit) :=
  [.load () (.send payload), .userReturns, .advance .returned 0] ++
    dispatchNext [.channel .connection] EPOLLIN ++
    [.act (.data []) (.bytes 0), .userReturns, .act (.data []) (.bytes 0), .act (.data []) (.bytes 0),
      .push (), .advance .handled 0] ++
    takeNext ++ [.act (.data []) (.error .EWOULDBLOCK), .advance .returned 0] ++
    dispatchNext [.wakeupChannel, .channel .connection] EPOLLHUP ++
    [.act (.data []) (.bytes 0), .userReturns, .act (.data []) (.bytes 0)]

/-- After that the connection has been announced down, and its removal asked for, twice. -/
theorem callbacks_out_of_order :
    ∃ s, (system Unit (fun _ => true) false).run justEstablished sendBehindClose = some s ∧
      callbacks s.log = [.connection true, .connection false, .close, .connection false, .close] ∧
      ¬ InOrder s.log := by
  have hruns : ((system Unit (fun _ => true) false).run justEstablished sendBehindClose).map
      (fun s => callbacks s.log) =
        some [.connection true, .connection false, .close, .connection false, .close] := by
    decide +kernel
  obtain ⟨s, hrun, hcallbacks⟩ := Option.map_eq_some_iff.mp hruns
  refine ⟨s, hrun, hcallbacks, ?_⟩
  rintro ⟨n, tail, hshape, htail⟩
  have htwice : (callbacks s.log).count .close = 2 := by
    rw [hcallbacks]
    rfl
  have honce : tail.count .close ≤ 1 := htail.sublist.count_le _
  rw [hshape] at htwice
  simp [List.count_replicate] at htwice
  omega

end muduo.tcp_connection
