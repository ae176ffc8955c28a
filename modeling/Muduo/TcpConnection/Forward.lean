import Muduo.TcpConnection.Lifecycle
import Mathlib.Data.List.Chain

open transition
open muduo.kernel muduo.buffer muduo.epoll muduo.event_loop

namespace muduo.tcp_connection

variable {T : Type}

/-- The place of a state on the way of a connection through its life. -/
def StateE.rank : StateE → Nat
  | .kConnecting => 0
  | .kConnected => 1
  | .kDisconnecting => 2
  | .kDisconnected => 3

def Event.value : Event → List StateE
  | .setState state => [state]
  | _ => []

/-- The values that `state_` has taken since the construction of the connection. -/
def values (log : List Event) : List StateE := .kConnecting :: log.flatMap Event.value

/-- The state has only moved forward. -/
def Forward (log : List Event) : Prop :=
  (values log).Pairwise fun before after => before.rank ≤ after.rank

instance (log : List Event) : Decidable (Forward log) :=
  inferInstanceAs (Decidable (List.Pairwise _ _))

/-- A store of another thread's `shutdown` does not find the connection disconnected. -/
def System.storesInTime (s : System T) : Input T → Bool
  | .store _ => s.conn.state_ != .kDisconnected
  | _ => true

def StoresInTime (s : System T) (i : Input T) : Prop := s.storesInTime i = true

instance (s : System T) (i : Input T) : Decidable (StoresInTime s i) :=
  inferInstanceAs (Decidable (s.storesInTime i = true))

theorem values_append (log more : List Event) :
    values (log ++ more) = values log ++ more.flatMap Event.value := by
  rw [values, List.flatMap_append, values, List.cons_append]

theorem value_of_isTransfer {event : Event} (h : event.isTransfer = true) : event.value = [] := by
  cases event <;> first | rfl | cases h

/-- Another value continues the way forward exactly if it does not lie behind the last one. -/
theorem pairwise_rank_snoc {states : List StateE} {last next : StateE} (hlast : states.getLast? = some last)
    (hforward : states.Pairwise fun before after => before.rank ≤ after.rank) :
    (states ++ [next]).Pairwise (fun before after => before.rank ≤ after.rank) ↔ last.rank ≤ next.rank := by
  have hsplit : states = states.dropLast ++ [last] := (List.dropLast_append_getLast? last hlast).symm
  rw [List.pairwise_append]
  constructor
  · intro ⟨_, _, hall⟩
    exact hall last (by rw [hsplit]; simp) next (by simp)
  · intro hle
    refine ⟨hforward, List.pairwise_singleton _ _, ?_⟩
    intro before hbefore after hafter
    obtain rfl := List.mem_singleton.mp hafter
    rw [hsplit] at hbefore hforward
    rcases List.mem_append.mp hbefore with hearlier | hnow
    · exact Nat.le_trans ((List.pairwise_append.mp hforward).2.2 before hearlier last (by simp)) hle
    · obtain rfl := List.mem_singleton.mp hnow
      exact hle

/-- An act of an established connection takes `state_` nowhere or to `kDisconnected`. -/
theorem Turn.values_eq {received : Received} {written : Written} {w w' : World} {a : Act} {next : List Act}
    (h : Turn received written w a w' next) (ha : a ≠ .call .connectEstablished) :
    values w'.log = values w.log ∧ w'.conn.state_ = w.conn.state_ ∨
    values w'.log = values w.log ++ [.kDisconnected] ∧ w'.conn.state_ = .kDisconnected := by
  have hclosed (w : World) : values w.handleClose.1.log = values w.log ++ [.kDisconnected] ∧
      w.handleClose.1.conn.state_ = .kDisconnected := by
    rw [World.log_handleClose, values_append, World.conn_handleClose]
    exact ⟨rfl, rfl⟩
  have hsilent {event : Event} (hevent : event.value = []) :
      values (w.log ++ [event]) = values w.log := by
    rw [values_append, List.flatMap_singleton, hevent, List.append_nil]
  cases h with
  | connectEstablished => exact absurd rfl ha
  | connectDestroyed => exact .inl ⟨rfl, rfl⟩
  | disconnect => exact .inr (hclosed w)
  | remove =>
    refine .inl ⟨?_, by rw [World.conn_perform]⟩
    rw [World.log_perform]
    exact hsilent rfl
  | queue functor => exact .inl ⟨hsilent rfl, rfl⟩
  | close => exact .inr (hclosed w)
  | endOfStream inputBuffer_ => exact .inr (hclosed (w.setInputBuffer inputBuffer_))
  | message => exact .inl ⟨hsilent rfl, rfl⟩
  | closeCallback_ => exact .inl ⟨hsilent rfl, rfl⟩
  | transfer _ _ _ htransfers =>
    obtain ⟨events, hlog, hevents⟩ := htransfers.log
    refine .inl ⟨?_, htransfers.state_eq⟩
    rw [hlog, values_append, List.flatMap_eq_nil_iff.mpr fun event hmem => value_of_isTransfer (hevents event hmem),
      List.append_nil]

/-- What holds throughout the life of an established connection: it is not
established again, and the record of its states ends with the one that it is in. -/
structure Recorded (s : System T) : Prop where
  orderly : Orderly s
  last : (values s.log).getLast? = some s.conn.state_

theorem Established.recorded {s : System T} (h : Established s) : Recorded s := by
  refine ⟨h.orderly, ?_⟩
  cases h with
  | intro conn poller thread rest registered =>
    have hlog := World.log_connectEstablished { conn, poller, queued := [], log := [] }
    have hconn := World.conn_connectEstablished { conn, poller, queued := [], log := [] }
    simp only [System.established, hlog, hconn]
    rfl

theorem Established.forward {s : System T} (h : Established s) : Forward s.log := by
  cases h with
  | intro conn poller thread rest registered =>
    have hlog := World.log_connectEstablished { conn, poller, queued := [], log := [] }
    simp only [System.established, hlog]
    exact (by decide : [StateE.kConnecting, .kConnected].Pairwise fun before after => before.rank ≤ after.rank)

/-- What a step adds to the states of the connection. -/
theorem Recorded.step_cases [DecidableEq T] {alloc : Nat → Bool} {sameLoop : Bool} {s t : System T} {i : Input T}
    (h : Recorded s) (hstep : s.step alloc sameLoop i = some t) :
    values t.log = values s.log ∧ t.conn.state_ = s.conn.state_ ∧ StoresInTime s i ∨
    ∃ next, values t.log = values s.log ++ [next] ∧ t.conn.state_ = next ∧
      (s.conn.state_.rank ≤ next.rank ↔ StoresInTime s i) := by
  have hquiet (hvalues : values t.log = values s.log) (hstate : t.conn.state_ = s.conn.state_)
      (hi : ∀ caller, i ≠ .store caller) :
      values t.log = values s.log ∧ t.conn.state_ = s.conn.state_ ∧ StoresInTime s i := by
    refine ⟨hvalues, hstate, ?_⟩
    cases i <;> first | rfl | exact absurd rfl (hi _)
  by_cases hi : ∃ caller, i = .store caller
  · obtain ⟨caller, rfl⟩ := hi
    cases System.stepped hstep
    refine .inr ⟨.kDisconnecting, values_append _ _, rfl, ?_⟩
    unfold StoresInTime System.storesInTime
    cases s.conn.state_ <;> simp [StateE.rank]
  · have hother : ∀ caller, i ≠ .store caller := fun caller heq => hi ⟨caller, heq⟩
    cases step_control hstep with
    | quiet _ _ hstate _ _ _ hlog =>
      refine .inl (hquiet ?_ hstate hother)
      rcases hlog with hlog | ⟨buf, hlog⟩ <;> rw [hlog]
      rw [values_append]
      exact List.append_nil _
    | shut _ _ hconn _ hlog _ _ hcause =>
      have hconnected := hcause.resolve_right hi
      refine .inr ⟨.kDisconnecting, by rw [hlog, values_append]; rfl, by rw [hconn], ?_⟩
      rw [hconnected]
      refine iff_of_true (by decide) ?_
      cases i <;> first | rfl | exact absurd rfl (hother _)
    | act received written a rest w next htodo hact =>
      have ha : a ≠ .call .connectEstablished := by
        rintro rfl
        exact h.orderly.settled.todo (by rw [htodo]; simp)
      rcases (World.act_turn hact).values_eq ha with ⟨hvalues, hstate⟩ | ⟨hvalues, hstate⟩
      · exact .inl ⟨hvalues, hstate, rfl⟩
      · refine .inr ⟨.kDisconnected, hvalues, hstate, iff_of_true ?_ rfl⟩
        cases s.conn.state_ <;> decide

theorem Recorded.step [DecidableEq T] {alloc : Nat → Bool} {sameLoop : Bool} {s t : System T} {i : Input T}
    (h : Recorded s) (hstep : s.step alloc sameLoop i = some t) : Recorded t := by
  refine ⟨h.orderly.step hstep, ?_⟩
  rcases h.step_cases hstep with ⟨hvalues, hstate, _⟩ | ⟨next, hvalues, hstate, _⟩
  · rw [hvalues, hstate]
    exact h.last
  · rw [hvalues, hstate]
    exact List.getLast?_concat

/-- A step keeps the state moving forward exactly if it is not a late store. -/
theorem Recorded.forward_iff [DecidableEq T] {alloc : Nat → Bool} {sameLoop : Bool} {s t : System T} {i : Input T}
    (h : Recorded s) (hforward : Forward s.log) (hstep : s.step alloc sameLoop i = some t) :
    Forward t.log ↔ StoresInTime s i := by
  unfold Forward
  rcases h.step_cases hstep with ⟨hvalues, _, hintime⟩ | ⟨next, hvalues, _, hrank⟩
  · rw [hvalues]
    exact iff_of_true hforward hintime
  · rw [hvalues, pairwise_rank_snoc h.last hforward]
    exact hrank

/-- The connection state only moves forward: along every run of an established
connection, the values that `state_` has taken never go backwards exactly if no
store of another thread's `shutdown` finds the connection disconnected. -/
theorem state_moves_forward [DecidableEq T] {alloc : Nat → Bool} {sameLoop : Bool} {s₀ s : System T}
    {inputs : List (Input T)} (hstart : Established s₀)
    (hrun : (system T alloc sameLoop).run s₀ inputs = some s) :
    (∀ done t, done <+: inputs → (system T alloc sameLoop).run s₀ done = some t → Forward t.log) ↔
      (system T alloc sameLoop).Along StoresInTime s₀ inputs :=
  Machine.along_iff_forall_prefix (fun _ => True) (fun s => Recorded s ∧ Forward s.log)
    (fun s => Forward s.log) (fun _ h => h.2)
    (fun _ _ _ h _ hok hstep => ⟨h.1.step hstep, (h.1.forward_iff h.2 hstep).mpr hok⟩)
    (fun _ _ _ h _ hnot hstep hforward => hnot ((h.1.forward_iff h.2 hstep).mp hforward))
    (fun _ _ => trivial) ⟨hstart.recorded, hstart.forward⟩ hrun

/-- Another thread shuts the connection down, and the peer closes after that. -/
def shutdownThenClose : List (Input Unit) :=
  [.load () .shutdown, .store ()] ++ peerCloses

theorem state_moves_forward_closed :
    ∃ s, (system Unit (fun _ => true) false).run justEstablished shutdownThenClose = some s ∧
      ∀ done t, done <+: shutdownThenClose →
        (system Unit (fun _ => true) false).run justEstablished done = some t → Forward t.log := by
  have hruns : ((system Unit (fun _ => true) false).run justEstablished shutdownThenClose).isSome = true := by
    decide +kernel
  obtain ⟨s, hrun⟩ := Option.isSome_iff_exists.mp hruns
  exact ⟨s, hrun, (state_moves_forward established_justEstablished hrun).mpr (by decide +kernel)⟩

/-- Another thread is between the test and the store of `shutdown` when the peer
closes: the connection is then shutting down after it was disconnected. -/
theorem state_moves_back :
    ∃ s, (system Unit (fun _ => true) false).run justEstablished
        ([.load () .shutdown] ++ peerCloses ++ [.store ()]) = some s ∧
      values s.log = [.kConnecting, .kConnected, .kDisconnected, .kDisconnecting] ∧ ¬ Forward s.log := by
  have hruns : ((system Unit (fun _ => true) false).run justEstablished
      ([.load () .shutdown] ++ peerCloses ++ [.store ()])).map (fun s => values s.log) =
        some [.kConnecting, .kConnected, .kDisconnected, .kDisconnecting] := by
    decide +kernel
  obtain ⟨s, hrun, hvalues⟩ := Option.map_eq_some_iff.mp hruns
  refine ⟨s, hrun, hvalues, ?_⟩
  rw [Forward, hvalues]
  decide

end muduo.tcp_connection
