import Muduo.EventLoop.View
import Muduo.TcpConnection.Teardown
import Muduo.TcpConnection.Twin
import Muduo.TcpServer.Protocol

open transition
open muduo.kernel muduo.epoll muduo.event_loop
open muduo.tcp_connection (Act Functor TcpConnection World System)

namespace muduo.tcp_server

/-- A functor of a server's loop as one of the connections sees it. -/
def Task.view (conn : Nat) : Task → tcp_connection.Task
  | .connection bound functor => if bound = conn then .connection functor else .other
  | .removeConnectionInLoop _ => .other
  | .other => .other

def Handler.view (conn : Nat) : Handler → tcp_connection.Handler
  | .connection bound => if bound = conn then .connection else .other
  | .acceptor => .other
  | .other => .other

/-- The act of a connection that a job is, if it is one. A connection takes its removal on
the base loop for a part of the call that asks for it. -/
def Job.view (conn : Nat) : Job → Option Act
  | .connection bound a => if bound = conn then some a else none
  | .handleRead => none
  | .removeConnectionInLoop bound => if bound = conn then some .removeConnection else none
  | .user => none

/-- What is done in front of its acts and is not one of them is user code to a connection,
all of it one piece. Outside of `loop()` that need not be shown. -/
def behind (outside : Bool) : List Act → List Act
  | [] => if outside then [] else [.user]
  | .user :: rest => .user :: rest
  | a :: rest => .user :: a :: rest

/-- The jobs of a body as one of the connections sees them. -/
def view (conn : Nat) (outside : Bool) : List Job → List Act
  | [] => []
  | job :: rest => match job.view conn with
    | some a => a :: view conn outside rest
    | none => behind outside (view conn outside rest)

def isOutside : Location Task Handler → Bool
  | .outside => true
  | _ => false

section

variable {conn : Nat} {outside : Bool} {job : Job} {jobs rest : List Job}

theorem view_cons_of_some {a : Act} (h : job.view conn = some a) :
    view conn outside (job :: rest) = a :: view conn outside rest := by
  rw [view, h]

theorem view_cons_of_none (h : job.view conn = none) :
    view conn outside (job :: rest) = behind outside (view conn outside rest) := by
  rw [view, h]

@[simp] theorem behind_behind (outside : Bool) (acts : List Act) :
    behind outside (behind outside acts) = behind outside acts := by
  cases acts with
  | nil => cases outside <;> rfl
  | cons a rest => cases a <;> rfl

/-- When what is in front is done, the connection sees user code return, or nothing. -/
theorem behind_cases (outside : Bool) (acts : List Act) : behind outside acts = acts ∨
    behind outside acts = .user :: acts := by
  cases acts with
  | nil =>
    cases outside with
    | true => exact .inl rfl
    | false => exact .inr rfl
  | cons a rest =>
    cases a with
    | user => exact .inl rfl
    | call | callback | drained | disconnect | remove | queue | closeCallback_ | removeConnection => exact .inr rfl

/-- The jobs of a connection itself. -/
theorem view_map_append (conn : Nat) (outside : Bool) (next : List Act) (rest : List Job) :
    view conn outside (next.map (.connection conn) ++ rest) = next ++ view conn outside rest := by
  induction next with
  | nil => rfl
  | cons a next ih =>
    rw [List.map_cons, List.cons_append, view_cons_of_some (a := a) (by simp [Job.view]), ih,
      List.cons_append]

/-- The jobs of others. -/
theorem view_append_of_none (outside : Bool) (hjobs : ∀ job ∈ jobs, job.view conn = none) (rest : List Job) :
    view conn outside (jobs ++ rest) =
      if jobs = [] then view conn outside rest else behind outside (view conn outside rest) := by
  induction jobs with
  | nil => rfl
  | cons job jobs ih =>
    rw [if_neg (List.cons_ne_nil _ _), List.cons_append, view_cons_of_none (hjobs job List.mem_cons_self),
      ih fun other hmem => hjobs other (List.mem_cons_of_mem _ hmem)]
    split
    · rfl
    · rw [behind_behind]

/-- Of the jobs of others a connection sees user code at most. -/
theorem eq_user_of_mem_view (hjobs : ∀ job ∈ jobs, job.view conn = none) {a : Act}
    (hmem : a ∈ view conn outside jobs) : a = .user := by
  have hview := view_append_of_none outside hjobs []
  rw [List.append_nil] at hview
  rw [hview] at hmem
  split at hmem
  · cases hmem
  · cases outside with
    | true => cases hmem
    | false => exact List.mem_singleton.mp hmem

theorem Job.view_eq_none {job : Job} (h : job.owns conn = false) : job.view conn = none := by
  cases job with
  | connection bound a | removeConnectionInLoop bound =>
    have hne : bound ≠ conn := by simpa [Job.owns] using h
    simp [Job.view, hne]
  | handleRead | user => rfl

theorem Task.view_eq_other {task : Task} (h : task.entry.owns conn = false) : task.view conn = .other := by
  cases task with
  | connection bound functor =>
    have hne : bound ≠ conn := by simpa [Task.entry, Job.owns] using h
    simp [Task.view, hne]
  | removeConnectionInLoop | other => rfl

end

section

variable {T : Type} {L : Type}

/-- User code seems to run whenever something is done that is not the connection's. -/
theorem userRuns_of_behind {q : System T} {outside : Bool} {acts : List Act} (htodo : q.todo = behind outside acts)
    (houtside : outside = true → q.thread.at_ = .outside) : q.userRuns = true := by
  unfold System.userRuns
  rw [htodo]
  cases acts with
  | nil =>
    cases outside with
    | true =>
      rw [houtside rfl]
      rfl
    | false => rfl
  | cons a rest => cases a <;> rfl

/-- Where user code runs, what others do is hidden from the connection. -/
theorem behind_view_of_userRuns {s : TcpServer L} {l : L} (huser : s.userRuns l = true) (conn : Nat) :
    behind (isOutside (s.threads l).at_) (view conn (isOutside (s.threads l).at_) (s.todos l)) =
      view conn (isOutside (s.threads l).at_) (s.todos l) := by
  unfold TcpServer.userRuns at huser
  split at huser
  · next htodo => rw [htodo, view_cons_of_none rfl, behind_behind]
  · next bound rest htodo =>
    rw [htodo]
    by_cases hbound : bound = conn
    · rw [view_cons_of_some (a := .user) (by simp [Job.view, hbound])]
      rfl
    · rw [view_cons_of_none (by simp [Job.view, hbound]), behind_behind]
  · next htodo hat =>
    rw [htodo, hat]
    rfl
  · cases huser

theorem view_eq_connection {conn : Nat} {ready : Ready Handler} :
    ready.map (Handler.view conn) = .channel .connection ↔ ready = .channel (.connection conn) := by
  obtain _ | handler := ready
  · simp [Ready.map]
  · obtain bound | _ | _ := handler
    · by_cases hbound : bound = conn <;> simp [Ready.map, Handler.view, hbound]
    · simp [Ready.map, Handler.view]
    · simp [Ready.map, Handler.view]

/-- A connection finds itself as often among the channels as they list it. -/
theorem count_view (conn : Nat) (activeChannels : List (Ready Handler)) :
    (activeChannels.map (Ready.map (Handler.view conn))).count (.channel .connection) =
      activeChannels.count (.channel (.connection conn)) := by
  induction activeChannels with
  | nil => rfl
  | cons ready activeChannels ih =>
    simp only [List.map_cons, List.count_cons, ih, beq_iff_eq, view_eq_connection]

theorem listed_view (conn : Nat) (activeChannels : List (Ready Handler)) :
    .channel .connection ∈ activeChannels.map (Ready.map (Handler.view conn)) ↔
      .channel (.connection conn) ∈ activeChannels := by
  rw [← List.count_pos_iff, count_view, List.count_pos_iff]

/-- What `poll` reports to a connection. -/
theorem reports_view (conn : Nat) (a : Advance Handler) :
    System.reports (a.map (Handler.view conn)) = TcpServer.reports conn a := by
  cases a with
  | poll activeChannels => exact decide_eq_decide.mpr (listed_view conn activeChannels)
  | enter | test | dispatch | handled | beginFunctors | swap | take | returned | endFunctors => rfl

/-- The body that a loop's thread enters, as a connection sees it: the same, unless it is
an empty one of something else, where it sees user code. -/
theorem view_body {s : TcpServer L} {conn : Nat} {object : Object L} (hobject : s.objects conn = some object)
    (at_ : Location Task Handler) (hremoving : ∀ rest, at_ ≠ .running (.removeConnectionInLoop conn) rest) :
    System.body object.conn (at_.view (Task.view conn) (Handler.view conn)) =
        view conn (isOutside at_) (s.body at_) ∨
      System.body object.conn (at_.view (Task.view conn) (Handler.view conn)) = [.user] ∧
        view conn (isOutside at_) (s.body at_) = [] := by
  cases at_ with
  | handling handler activeChannels =>
    cases handler with
    | connection bound =>
      by_cases hbound : bound = conn
      · subst hbound
        left
        have hview := view_map_append bound false (object.conn.channel_.handleEventWithGuard.map .callback) []
        rw [List.append_nil, List.map_map] at hview
        simp only [System.body, Location.view, Handler.view, if_true, TcpServer.body, hobject]
        exact (hview.trans (List.append_nil _)).symm
      · have hother : ∀ job ∈ s.body (.handling (.connection bound) activeChannels), job.view conn = none := by
          intro job hmem
          obtain ⟨callback, rfl⟩ := TcpServer.body_connection hmem
          simp [Job.view, hbound]
        have hview := view_append_of_none false hother []
        rw [List.append_nil] at hview
        simp only [System.body, Location.view, Handler.view, hbound, if_false, isOutside, hview]
        split
        · exact .inr ⟨trivial, rfl⟩
        · exact .inl rfl
    | acceptor | other => exact .inl rfl
  | running task rest =>
    left
    cases task with
    | connection bound functor =>
      by_cases hbound : bound = conn <;>
        simp [System.body, Location.view, Task.view, hbound, TcpServer.body, Task.entry, view, Job.view, isOutside,
          behind]
    | removeConnectionInLoop bound =>
      have hbound : bound ≠ conn := by
        rintro rfl
        exact hremoving rest rfl
      simp [System.body, Location.view, Task.view, TcpServer.body, Task.entry, view, Job.view, hbound, isOutside,
        behind]
    | other => rfl
  | outside | testing | polling | dispatching | swapping | batch => exact .inl rfl

end

end muduo.tcp_server
