import Mathlib.Data.Fintype.Basic
import Muduo.TcpConnection.Removal

open transition
open muduo.kernel muduo.epoll muduo.event_loop
open muduo.tcp_connection (Act Attended Established Removal System)

namespace muduo.tcp_server

/-- How far the destructor of a server is: it has not begun, it sweeps `connections_`,
it joins the threads of the loops, or it has returned. -/
inductive Lifetime where
  | alive
  | sweeping
  | joining
  | gone
  deriving DecidableEq

/-- The thread of the base loop is not in the destructor. -/
def Lifetime.baseRuns : Lifetime → Bool
  | .alive => true
  | .sweeping => false
  | .joining => false
  | .gone => true

/-- A server with its connections, each on its loop. `calls` counts the calls of
`connectDestroyed` on each, and `stray` records the functors `removeConnectionInLoop`
that the base loop has executed after the destructor returned. -/
structure Closing (C T : Type) where
  lifetime : Lifetime
  connections : C → System T
  calls : C → Nat
  stray : List C

/-- A step of a connection, its loop and its callers, or of the destructor. -/
inductive ClosingInput (C T : Type) where
  | connection (c : C) (i : tcp_connection.Input T)
  | destroy
  | join
  | returned

/-- The steps of the thread of the connection's loop. -/
def byOwnLoop {T : Type} : tcp_connection.Input T → Bool
  | .advance _ _ => true
  | .act _ _ => true
  | .ownCall _ => true
  | .ownRetrieve _ => true
  | .ownQueue => true
  | .userReturns => true
  | .quit isInLoopThread => isInLoopThread
  | .load _ _ => false
  | .store _ => false
  | .push _ => false
  | .queueOther => false
  | .removeConnectionInLoop => false
  | .destroyServer => false

namespace Closing

variable {C T : Type}

/-- Whether a step of a connection can be taken now. The base loop's thread, which is
in the destructor, runs nothing but a `connectDestroyed` of the sweep on its own
loop's connections, and the threads of the other loops are joined in the end. -/
def enabled (sameLoop : C → Bool) (s : Closing C T) (c : C) : tcp_connection.Input T → Bool
  | .destroyServer => decide (s.lifetime = .sweeping)
  | .removeConnectionInLoop => s.lifetime.baseRuns
  | i => !byOwnLoop i ||
    if sameLoop c then s.lifetime.baseRuns || (s.connections c).todo.any Act.isTeardown
    else decide (s.lifetime ≠ .gone)

/-- The close callback of a connection is the next act of its loop's thread. -/
def asks (s : Closing C T) (c : C) : Bool := (s.connections c).todo.head? == some .removeConnection

/-- Whether a step executes a `removeConnectionInLoop` on the base loop. -/
def executes (sameLoop : C → Bool) (s : Closing C T) (c : C) : tcp_connection.Input T → Bool
  | .removeConnectionInLoop => true
  | .act _ _ => sameLoop c && s.asks c
  | _ => false

def follow [DecidableEq C] (sameLoop : C → Bool) (s : Closing C T) (c : C) (i : tcp_connection.Input T)
    (system : System T) : Closing C T :=
  { s with
    connections := Function.update s.connections c system
    calls := Function.update s.calls c (s.calls c + (s.connections c).calls i)
    stray := s.stray ++ if s.lifetime = .gone ∧ s.executes sameLoop c i = true then [c] else [] }

/-- The destructor runs in user code on the thread of the base loop. Its sweep ends
when no connection is left in `connections_`, and it returns when the threads of the
other loops have left `loop()`. -/
def step [DecidableEq C] [Fintype C] [DecidableEq T] (alloc : Nat → Bool) (sameLoop : C → Bool)
    (s : Closing C T) : ClosingInput C T → Option (Closing C T)
  | .connection c i =>
    if s.enabled sameLoop c i then
      ((s.connections c).step alloc (sameLoop c) i).map (s.follow sameLoop c i)
    else none
  | .destroy =>
    if s.lifetime = .alive ∧ ∀ c, sameLoop c = true → (s.connections c).userRuns = true then
      some { s with lifetime := .sweeping }
    else none
  | .join =>
    if s.lifetime = .sweeping ∧ ∀ c, (s.connections c).registered = false ∧
        (sameLoop c = true → (s.connections c).todo.any Act.isTeardown = false) then
      some { s with lifetime := .joining }
    else none
  | .returned =>
    if s.lifetime = .joining ∧ ∀ c, sameLoop c = false →
        (s.connections c).thread.at_ = .outside ∧ (s.connections c).todo = [] then
      some { s with lifetime := .gone }
    else none

/-- Whether a step leaves no removal to a server that is being destroyed: none is
pending when the destructor begins, and a close callback only runs before that, for a
connection that is in `connections_` and not to be removed already. -/
def settled [Fintype C] (s : Closing C T) : ClosingInput C T → Bool
  | .destroy => decide (∀ c, (s.connections c).removals = 0)
  | .connection c (.act _ _) => !s.asks c ||
    decide (s.lifetime = .alive) && (s.connections c).registered && (s.connections c).removals == 0
  | _ => true

end Closing

/-- A server and its connections in every interleaving with its destructor. -/
def closing (C T : Type) [DecidableEq C] [Fintype C] [DecidableEq T] (alloc : Nat → Bool)
    (sameLoop : C → Bool) : Machine (Closing C T) (ClosingInput C T) where
  step := Closing.step alloc sameLoop

variable {C T : Type}

/-- A connection is in `connections_` and destroyed by nobody yet, or it is not there
any more and destroyed at most once. -/
def Once (system : System T) (calls : Nat) : Prop :=
  system.registered = true ∧ system.pending + calls = 0 ∧ system.removals ≤ 1 ∨
  system.registered = false ∧ system.pending + calls ≤ 1 ∧ system.removals = 0

/-- A step that leaves no removal to a server that is being destroyed keeps the
account of the calls of `connectDestroyed`. -/
theorem Once.step {sameLoop : Bool} {system t : System T} {i : tcp_connection.Input T} {calls : Nat}
    (h : Once system calls) (hremoval : Removal sameLoop system i t)
    (hasked : ∀ received written rest, i = .act received written →
      system.todo = .removeConnection :: rest → system.registered = true ∧ system.removals = 0)
    (hswept : i = .destroyServer → system.removals = 0) : Once t (calls + system.calls i) := by
  cases hremoval with
  | kept _ _ hpending hcalls hregistered hremovals =>
    unfold Once
    rw [hpending, hcalls, hregistered, hremovals]
    exact h
  | called _ _ _ hpending hcalls hregistered hremovals =>
    unfold Once
    rw [hregistered, hremovals]
    rcases h with ⟨_, hnone, _⟩ | ⟨hgone, hone, hzero⟩
    · omega
    · exact .inr ⟨hgone, by omega, hzero⟩
  | asked _ _ rest htodo =>
    obtain ⟨hregistered, hremovals⟩ := hasked _ _ rest rfl htodo
    have hnone := (h.resolve_right (by simp [hregistered])).2.1
    refine .inl ⟨hregistered, ?_, ?_⟩
    · simpa [System.pending, htodo, System.calls] using hnone
    · simp [hremovals]
  | erased _ _ rest htodo _ _ hpending hregistered hremovals =>
    obtain ⟨hbefore, hzero⟩ := hasked _ _ rest rfl htodo
    have hnone := (h.resolve_right (by simp [hbefore])).2.1
    refine .inr ⟨hregistered, ?_, by omega⟩
    simp only [System.calls, htodo, List.head?_cons, Option.some.injEq, reduceCtorEq, if_false]
    omega
  | removed hsome _ hpending hregistered hremovals =>
    rcases h with ⟨_, hnone, hone⟩ | ⟨_, _, hzero⟩
    · exact .inr ⟨hregistered, by simp only [System.calls]; omega, by omega⟩
    · omega
  | swept hmapped _ hpending hregistered hremovals =>
    have hzero := hswept rfl
    have hnone := (h.resolve_right (by simp [hmapped])).2.1
    exact .inr ⟨hregistered, by simp only [System.calls]; omega, by omega⟩

namespace Closing

/-- What holds while no removal is left to a server that is being destroyed. -/
structure Orderly (s : Closing C T) : Prop where
  attended : ∀ c, Attended (s.connections c)
  once : ∀ c, Once (s.connections c) (s.calls c)
  removals : s.lifetime ≠ .alive → ∀ c, (s.connections c).removals = 0
  stray : s.stray = []

/-- A server all of whose connections have been established and are in `connections_`,
unless their `connectDestroyed` is queued already. -/
inductive Started : Closing C T → Prop where
  | intro (connections : C → System T) (hestablished : ∀ c, Established (connections c))
      (hmapped : ∀ c,
        (connections c).registered = true ∧ .connection .connectDestroyed ∉ (connections c).thread.queue ∨
        (connections c).registered = false ∧
          (connections c).thread.queue.count (.connection .connectDestroyed) ≤ 1) :
      Started { lifetime := .alive, connections, calls := fun _ => 0, stray := [] }

theorem Started.orderly {s : Closing C T} (h : Started s) : Orderly s := by
  cases h with
  | intro connections hestablished hmapped =>
    refine ⟨fun c => (hestablished c).attended, ?_, fun halive => absurd rfl halive, rfl⟩
    intro c
    obtain ⟨hremovals, htodo⟩ := (hestablished c).unremoved
    rcases hmapped c with ⟨hregistered, hqueue⟩ | ⟨hregistered, hqueue⟩
    · refine .inl ⟨hregistered, ?_, ?_⟩
      · simp [System.pending, htodo, List.count_eq_zero.mpr hqueue]
      · simp [hremovals]
    · refine .inr ⟨hregistered, ?_, hremovals⟩
      simpa [System.pending, htodo] using hqueue

variable [DecidableEq C] [Fintype C] [DecidableEq T] {alloc : Nat → Bool} {sameLoop : C → Bool}

/-- A connection's step finds its removal settled. -/
theorem Orderly.connection {s : Closing C T} {c : C} {i : tcp_connection.Input T} {system : System T}
    (h : Orderly s) (hsettled : s.settled (.connection c i) = true)
    (henabled : s.enabled sameLoop c i = true)
    (hstep : (s.connections c).step alloc (sameLoop c) i = some system) :
    Orderly (s.follow sameLoop c i system) := by
  have hremoval := (h.attended c).removal hstep
  have hasked (received : Received) (written : Written) (rest : List Act) (hi : i = .act received written)
      (htodo : (s.connections c).todo = .removeConnection :: rest) :
      s.lifetime = .alive ∧ (s.connections c).registered = true ∧ (s.connections c).removals = 0 := by
    subst hi
    simpa [settled, asks, htodo, and_assoc] using hsettled
  have hswept (hi : i = .destroyServer) : (s.connections c).removals = 0 := by
    subst hi
    apply h.removals
    have hsweeping : s.lifetime = .sweeping := by simpa [enabled] using henabled
    simp [hsweeping]
  have honce : Once system (s.calls c + (s.connections c).calls i) :=
    (h.once c).step hremoval (fun received written rest hi htodo => (hasked received written rest hi htodo).2) hswept
  have hremovals (hdying : s.lifetime ≠ .alive) : system.removals = 0 := by
    have hzero := h.removals hdying c
    cases hremoval with
    | kept _ _ _ _ _ heq | called _ _ _ _ _ _ heq | erased _ _ _ _ _ _ _ _ heq | swept _ _ _ _ heq =>
      exact heq.trans hzero
    | asked received written rest htodo => exact absurd (hasked received written rest rfl htodo).1 hdying
    | removed hsome => omega
  have hstray : ¬ (s.lifetime = .gone ∧ s.executes sameLoop c i = true) := by
    rintro ⟨hgone, hexecutes⟩
    have hdying : s.lifetime ≠ .alive := by simp [hgone]
    cases i with
    | removeConnectionInLoop =>
      simp only [tcp_connection.System.step] at hstep
      split at hstep
      · next hpending =>
        have hzero := h.removals hdying c
        omega
      · cases hstep
    | act received written =>
      obtain ⟨_, hasks⟩ := Bool.and_eq_true_iff.mp hexecutes
      obtain ⟨rest, htodo⟩ := List.head?_eq_some_iff.mp (by simpa [asks] using hasks)
      exact hdying (hasked received written rest rfl htodo).1
    | _ => cases hexecutes
  refine ⟨?_, ?_, ?_, ?_⟩
  · intro other
    by_cases hother : other = c
    · subst hother
      simpa [follow] using (h.attended other).step hstep
    · simpa [follow, hother] using h.attended other
  · intro other
    by_cases hother : other = c
    · subst hother
      simpa [follow] using honce
    · simpa [follow, hother] using h.once other
  · intro hdying other
    by_cases hother : other = c
    · subst hother
      simpa [follow] using hremovals hdying
    · simpa [follow, hother] using h.removals hdying other
  · simp only [follow]
    rw [if_neg hstray, List.append_nil]
    exact h.stray

/-- Each step that leaves no removal to a server that is being destroyed keeps all of this. -/
theorem Orderly.step {s t : Closing C T} {i : ClosingInput C T} (h : Orderly s) (hsettled : s.settled i = true)
    (hstep : s.step alloc sameLoop i = some t) : Orderly t := by
  cases i with
  | connection c i =>
    simp only [Closing.step] at hstep
    split at hstep
    · next henabled =>
      obtain ⟨system, hsystem, rfl⟩ := Option.map_eq_some_iff.mp hstep
      exact h.connection hsettled henabled hsystem
    · cases hstep
  | destroy =>
    simp only [Closing.step] at hstep
    split at hstep
    · cases hstep
      have hnone : ∀ c, (s.connections c).removals = 0 := by simpa [settled] using hsettled
      exact ⟨h.attended, h.once, fun _ => hnone, h.stray⟩
    · cases hstep
  | join =>
    simp only [Closing.step] at hstep
    split at hstep
    · next hswept =>
      cases hstep
      exact ⟨h.attended, h.once, fun _ => h.removals (by simp [hswept.1]), h.stray⟩
    · cases hstep
  | returned =>
    simp only [Closing.step] at hstep
    split at hstep
    · next hjoined =>
      cases hstep
      exact ⟨h.attended, h.once, fun _ => h.removals (by simp [hjoined.1]), h.stray⟩
    · cases hstep

end Closing

/-- No removal is left to a server that is being destroyed. -/
def Settled {C T : Type} [Fintype C] (s : Closing C T) (i : ClosingInput C T) : Prop := s.settled i = true

instance {C T : Type} [Fintype C] (s : Closing C T) (i : ClosingInput C T) : Decidable (Settled s i) :=
  inferInstanceAs (Decidable (s.settled i = true))

/-- Destroying a server is safe against closes that have been settled. In every run in
which the destructor begins when no removal is pending, and a close callback only runs
before that, for a connection that is not yet to be removed, the base loop never
executes a `removeConnectionInLoop` of a server that is gone, and `connectDestroyed`
is called at most once for each connection. -/
theorem destructor_safe_when_settled {C T : Type} [DecidableEq C] [Fintype C] [DecidableEq T]
    {alloc : Nat → Bool} {sameLoop : C → Bool} {s₀ s : Closing C T} (hstart : Closing.Started s₀)
    (hrun : (closing C T alloc sameLoop).Steps Settled s₀ s) : s.stray = [] ∧ ∀ c, s.calls c ≤ 1 := by
  have horderly := hrun.invariant (fun _ _ _ h hsettled hstep => Closing.Orderly.step h hsettled hstep)
    hstart.orderly
  refine ⟨horderly.stray, ?_⟩
  intro c
  rcases horderly.once c with ⟨_, hnone, _⟩ | ⟨_, hone, _⟩ <;> omega

/-- A server with one connection, on a loop of its own, that has just been established. -/
def oneConnection : Closing Unit Unit where
  lifetime := .alive
  connections := fun _ => tcp_connection.justEstablished
  calls := fun _ => 0
  stray := []

theorem started_oneConnection : Closing.Started oneConnection :=
  .intro _ (fun _ => tcp_connection.established_justEstablished) (fun _ => .inl ⟨rfl, by decide⟩)

/-- The peer closes, and the close callback asks the server to remove the connection. -/
def asksForRemoval : List (tcp_connection.Input Unit) :=
  [.userReturns, .advance .returned 0] ++ tcp_connection.dispatchNext [.channel .connection] EPOLLIN ++
    [.act (.data []) (.bytes 0), .userReturns, .act (.data []) (.bytes 0), .act (.data []) (.bytes 0),
      .advance .handled 0]

/-- The loop runs `connectDestroyed` and leaves `loop()`. -/
def destroysAndLeaves : List (tcp_connection.Input Unit) :=
  [.quit false] ++ tcp_connection.takeNext ++ List.replicate 2 (.act (.data []) (.bytes 0)) ++
    [.advance .returned 0, .advance .endFunctors 0, .advance .test 0]

/-- The base loop removes the connection before the server is destroyed. -/
def removedBefore : List (ClosingInput Unit Unit) :=
  asksForRemoval.map (.connection ()) ++ [.connection () .removeConnectionInLoop, .destroy, .join] ++
    destroysAndLeaves.map (.connection ()) ++ [.returned]

theorem destructor_safe_when_settled_removed :
    ∃ s, (closing Unit Unit (fun _ => true) fun _ => false).run oneConnection removedBefore = some s ∧
      s.stray = [] ∧ ∀ c, s.calls c ≤ 1 := by
  have hruns : ((closing Unit Unit (fun _ => true) fun _ => false).run oneConnection
      removedBefore).isSome = true := by decide +kernel
  obtain ⟨s, hrun⟩ := Option.isSome_iff_exists.mp hruns
  exact ⟨s, hrun, destructor_safe_when_settled started_oneConnection
    (Machine.steps_of_run hrun (by decide +kernel))⟩

/-- The server is destroyed while the removal is pending on the base loop, which goes on. -/
def removedBehind : List (ClosingInput Unit Unit) :=
  asksForRemoval.map (.connection ()) ++ [.destroy, .connection () .destroyServer, .join] ++
    destroysAndLeaves.map (.connection ()) ++ [.returned, .connection () .removeConnectionInLoop]

/-- The base loop executes `removeConnectionInLoop` of a server that is gone. -/
theorem destructor_leaves_removal :
    ∃ s, (closing Unit Unit (fun _ => true) fun _ => false).run oneConnection removedBehind = some s ∧
      s.lifetime = .gone ∧ s.stray = [()] ∧ ¬ (s.stray = [] ∧ ∀ c, s.calls c ≤ 1) := by
  have hruns : ((closing Unit Unit (fun _ => true) fun _ => false).run oneConnection
      removedBehind).map (fun s => (s.lifetime, s.stray)) = some (.gone, [()]) := by decide +kernel
  obtain ⟨s, hrun, hboth⟩ := Option.map_eq_some_iff.mp hruns
  obtain ⟨hgone, hstray⟩ := Prod.mk.inj hboth
  refine ⟨s, hrun, hgone, hstray, ?_⟩
  rintro ⟨hnone, _⟩
  rw [hstray] at hnone
  cases hnone

end muduo.tcp_server
