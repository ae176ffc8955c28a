import Mathlib.Data.List.Basic
import Muduo.Library.Transition

open transition

namespace fifo

variable {A : Type}

/-- A first-in first-out queue with its history: everything put in so far, what is
still held, and what has been taken out. -/
structure Fifo (A : Type) where
  taken : List A
  held : List A
  put : List A

def Fifo.empty : Fifo A := ⟨[], [], []⟩

inductive Input (A : Type) where
  | put (a : A)
  | take

/-- Putting at the back and taking from the front. -/
def machine (A : Type) : Machine (Fifo A) (Input A) where
  step q
    | .put a => some { q with held := q.held ++ [a], put := q.put ++ [a] }
    | .take => match q.held with
      | [] => none
      | a :: rest => some { q with taken := q.taken ++ [a], held := rest }

/-- Nothing is lost, duplicated or reordered. -/
def Fifo.Ordered (q : Fifo A) : Prop := q.taken ++ q.held = q.put

theorem Fifo.Ordered.step {q r : Fifo A} {i : Input A} (h : q.Ordered)
    (hstep : (machine A).step q i = some r) : r.Ordered := by
  unfold Fifo.Ordered at h ⊢
  cases i with
  | put a =>
    cases hstep
    rw [← h, List.append_assoc]
  | take =>
    simp only [machine] at hstep
    split at hstep
    · cases hstep
    · next a rest hheld =>
      cases hstep
      rw [← h, hheld, List.append_assoc, List.singleton_append]

theorem ordered_of_steps {ok : Fifo A → Input A → Prop} {q : Fifo A}
    (hrun : (machine A).Steps ok Fifo.empty q) : q.Ordered :=
  hrun.invariant (fun _ _ _ h _ hstep => h.step hstep) rfl

/-- What was taken out is a first part of what was put in, also among the elements
of any one kind. -/
theorem Fifo.Ordered.filter_taken {q : Fifo A} (h : q.Ordered) (kind : A → Bool) :
    q.taken.filter kind <+: q.put.filter kind := by
  unfold Fifo.Ordered at h
  rw [← h, List.filter_append]
  exact List.prefix_append _ _

end fifo
