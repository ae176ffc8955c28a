import Mathlib.Logic.Relation
import Mathlib.Data.Option.Basic

namespace transition

/-- A transition machine over states `S` and inputs `I`. The inputs carry every
choice of the environment (the interleaving, the answers of system calls), so a
step is a function, and `none` marks an input that is not enabled. -/
structure Machine (S I : Type) where
  step : S → I → Option S

namespace Machine

variable {S I T J : Type}

/-- One step by some input that meets `ok` in the state it is applied to. -/
def Next (M : Machine S I) (ok : S → I → Prop) (s t : S) : Prop :=
  ∃ i, ok s i ∧ M.step s i = some t

/-- Any number of steps, each meeting `ok` in the state it is taken from. -/
def Steps (M : Machine S I) (ok : S → I → Prop) : S → S → Prop :=
  Relation.ReflTransGen (M.Next ok)

/-- The condition that restricts nothing. -/
def Any : S → I → Prop := fun _ _ => True

theorem Steps.refl (M : Machine S I) (ok : S → I → Prop) (s : S) : M.Steps ok s s :=
  Relation.ReflTransGen.refl

theorem Steps.tail {M : Machine S I} {ok : S → I → Prop} {s t u : S} {i : I}
    (hsteps : M.Steps ok s t) (hok : ok t i) (hstep : M.step t i = some u) : M.Steps ok s u :=
  Relation.ReflTransGen.tail hsteps ⟨i, hok, hstep⟩

theorem Steps.single {M : Machine S I} {ok : S → I → Prop} {s t : S} {i : I}
    (hok : ok s i) (hstep : M.step s i = some t) : M.Steps ok s t :=
  (Steps.refl M ok s).tail hok hstep

theorem Steps.trans {M : Machine S I} {ok : S → I → Prop} {s t u : S}
    (hfirst : M.Steps ok s t) (hsecond : M.Steps ok t u) : M.Steps ok s u :=
  Relation.ReflTransGen.trans hfirst hsecond

/-- A property that every admitted step preserves holds at the end of a run
whenever it holds at its start. -/
theorem Steps.invariant {M : Machine S I} {ok : S → I → Prop} {P : S → Prop}
    (hpreserve : ∀ s i t, P s → ok s i → M.step s i = some t → P t)
    {s t : S} (hsteps : M.Steps ok s t) (hstart : P s) : P t := by
  induction hsteps with
  | refl => exact hstart
  | tail _ hnext ih =>
    obtain ⟨i, hok, hstep⟩ := hnext
    exact hpreserve _ i _ ih hok hstep

/-- Weakening the step condition along an invariant of the run. -/
theorem Steps.mono {M : Machine S I} {ok ok' : S → I → Prop} {P : S → Prop}
    (hpreserve : ∀ s i t, P s → ok s i → M.step s i = some t → P t)
    (himp : ∀ s i, P s → ok s i → ok' s i)
    {s t : S} (hsteps : M.Steps ok s t) (hstart : P s) : M.Steps ok' s t := by
  induction hsteps with
  | refl => exact Steps.refl M ok' s
  | tail hbefore hnext ih =>
    obtain ⟨i, hok, hstep⟩ := hnext
    have hreached := Steps.invariant hpreserve hbefore hstart
    exact ih.tail (himp _ i hreached hok) hstep

/-- Forward simulation: when every admitted step of `M` is matched by a run of
`N` between related states, every run of `M` is. -/
theorem Steps.simulate {M : Machine S I} {N : Machine T J}
    {ok : S → I → Prop} {ok' : T → J → Prop} {R : S → T → Prop}
    (hmatch : ∀ s i s' t, R s t → ok s i → M.step s i = some s' →
      ∃ t', R s' t' ∧ N.Steps ok' t t')
    {s s' : S} {t : T} (hsteps : M.Steps ok s s') (hstart : R s t) :
    ∃ t', R s' t' ∧ N.Steps ok' t t' := by
  induction hsteps with
  | refl => exact ⟨t, hstart, Steps.refl N ok' t⟩
  | tail _ hnext ih =>
    obtain ⟨t', hrel, hrun⟩ := ih
    obtain ⟨i, hok, hstep⟩ := hnext
    obtain ⟨t'', hrel', hrun'⟩ := hmatch _ i _ t' hrel hok hstep
    exact ⟨t'', hrel', hrun.trans hrun'⟩

/-- The state that a list of inputs leads to, if each is enabled in its turn. -/
def run (M : Machine S I) (s : S) : List I → Option S
  | [] => some s
  | i :: is => (M.step s i).bind fun t => run M t is

/-- A run that is not empty starts with a step. -/
theorem step_of_run_cons {M : Machine S I} {s u : S} {i : I} {is : List I} (hrun : M.run s (i :: is) = some u) :
    ∃ t, M.step s i = some t ∧ M.run t is = some u :=
  Option.bind_eq_some_iff.mp hrun

theorem run_cons {M : Machine S I} {s t u : S} {i : I} {is : List I} (hstep : M.step s i = some t)
    (hrun : M.run t is = some u) : M.run s (i :: is) = some u := by
  rw [run, hstep, Option.bind_some, hrun]

theorem run_append (M : Machine S I) (s : S) (is js : List I) :
    M.run s (is ++ js) = (M.run s is).bind fun t => M.run t js := by
  induction is generalizing s with
  | nil => rfl
  | cons i is ih =>
    cases hstep : M.step s i with
    | none => simp [run, hstep]
    | some t => simp [run, hstep, ih]

theorem run_trans {M : Machine S I} {s t u : S} {is js : List I} (hfirst : M.run s is = some t)
    (hsecond : M.run t js = some u) : M.run s (is ++ js) = some u := by
  rw [run_append, hfirst, Option.bind_some, hsecond]

/-- Every input of the list meets `ok` in the state it is applied to. -/
def Along (M : Machine S I) (ok : S → I → Prop) (s : S) : List I → Prop
  | [] => True
  | i :: is => ok s i ∧ match M.step s i with
    | none => True
    | some t => Along M ok t is

theorem Along.cons_iff {M : Machine S I} {ok : S → I → Prop} {s t : S} {i : I} {is : List I}
    (hstep : M.step s i = some t) : M.Along ok s (i :: is) ↔ ok s i ∧ M.Along ok t is := by
  simp only [Along, hstep]

instance decidableAlong (M : Machine S I) (ok : S → I → Prop) [∀ s i, Decidable (ok s i)] :
    ∀ (s : S) (is : List I), Decidable (M.Along ok s is)
  | _, [] => isTrue trivial
  | s, i :: is =>
    match hstep : M.step s i with
    | none => decidable_of_iff (ok s i) (by simp [Along, hstep])
    | some t =>
      have := decidableAlong M ok t is
      decidable_of_iff (ok s i ∧ M.Along ok t is) (Along.cons_iff hstep).symm

/-- Executing a list of inputs that meets the condition throughout is a run. -/
theorem steps_of_run {M : Machine S I} {ok : S → I → Prop} {is : List I} {s t : S}
    (hrun : M.run s is = some t) (halong : M.Along ok s is) : M.Steps ok s t := by
  induction is generalizing s with
  | nil =>
    obtain rfl : s = t := by simpa [run] using hrun
    exact Steps.refl M ok s
  | cons i is ih =>
    obtain ⟨u, hstep, hrest⟩ := step_of_run_cons hrun
    obtain ⟨hok, halong⟩ := (Along.cons_iff hstep).mp halong
    exact (Steps.single hok hstep).trans (ih hrest halong)

/-- A list of inputs that are enabled in every state of an invariant can be executed. -/
theorem exists_run {M : Machine S I} (valid : I → Prop) {P : S → Prop}
    (henabled : ∀ s i, P s → valid i → ∃ t, M.step s i = some t ∧ P t)
    {is : List I} {s : S} (hvalid : ∀ i ∈ is, valid i) (hstart : P s) : ∃ t, M.run s is = some t ∧ P t := by
  induction is generalizing s with
  | nil => exact ⟨s, rfl, hstart⟩
  | cons i is ih =>
    obtain ⟨t, hstep, hnext⟩ := henabled s i hstart (hvalid i (by simp))
    obtain ⟨u, hrun, hlast⟩ := ih (fun j hj => hvalid j (by simp [hj])) hnext
    exact ⟨u, by simp [run, hstep, hrun], hlast⟩

/-- If the steps that meet a condition keep an invariant that makes states good, and
the steps that do not meet it lead from the invariant to a state that is not good,
then all states along a run are good exactly when all its steps meet the condition. -/
theorem along_iff_forall_prefix {M : Machine S I} {ok : S → I → Prop} (valid : I → Prop)
    (P good : S → Prop) (hgood : ∀ s, P s → good s)
    (hkeep : ∀ s i t, P s → valid i → ok s i → M.step s i = some t → P t)
    (hfail : ∀ s i t, P s → valid i → ¬ ok s i → M.step s i = some t → ¬ good t)
    {is : List I} {s u : S} (hvalid : ∀ i ∈ is, valid i) (hstart : P s) (hrun : M.run s is = some u) :
    (∀ done t, done <+: is → M.run s done = some t → good t) ↔ M.Along ok s is := by
  induction is generalizing s with
  | nil =>
    refine ⟨fun _ => trivial, fun _ done t hdone ht => ?_⟩
    obtain rfl := List.prefix_nil.mp hdone
    cases ht
    exact hgood s hstart
  | cons i is ih =>
    have hi := hvalid i (by simp)
    obtain ⟨t, hstep, hrun⟩ := step_of_run_cons hrun
    have hrest (hok : ok s i) := ih (fun j hj => hvalid j (by simp [hj]))
      (hkeep s i t hstart hi hok hstep) hrun
    rw [Along.cons_iff hstep]
    constructor
    · intro hall
      have hnext : good t := hall [i] t (by simp) (by simp [run, hstep])
      have hok : ok s i := by
        by_contra hnot
        exact hfail s i t hstart hi hnot hstep hnext
      refine ⟨hok, (hrest hok).mp ?_⟩
      intro done v hdone hv
      exact hall (i :: done) v (by simpa using hdone) (by simpa [run, hstep] using hv)
    · rintro ⟨hok, halong⟩ done v hdone hv
      cases done with
      | nil =>
        cases hv
        exact hgood s hstart
      | cons j done =>
        obtain ⟨rfl, htail⟩ := List.cons_prefix_cons.mp hdone
        simp only [run, hstep, Option.bind_some] at hv
        exact (hrest hok).mpr halong done v htail hv

/-- A condition that the inputs meet in every state holds along the run. -/
theorem along_of_forall {M : Machine S I} {ok : S → I → Prop} {is : List I}
    (hall : ∀ i ∈ is, ∀ s, ok s i) (s : S) : M.Along ok s is := by
  induction is generalizing s with
  | nil => trivial
  | cons i is ih =>
    refine ⟨hall i (by simp) s, ?_⟩
    split
    · trivial
    · exact ih (fun j hj => hall j (by simp [hj])) _

/-- Two conditions that both hold along the run. -/
theorem Along.and {M : Machine S I} {ok ok' : S → I → Prop} {is : List I} {s : S} (h : M.Along ok s is)
    (h' : M.Along ok' s is) : M.Along (fun s i => ok s i ∧ ok' s i) s is := by
  induction is generalizing s with
  | nil => trivial
  | cons i is ih =>
    obtain ⟨hok, hrest⟩ := h
    obtain ⟨hok', hrest'⟩ := h'
    refine ⟨⟨hok, hok'⟩, ?_⟩
    cases hstep : M.step s i with
    | none => trivial
    | some t =>
      simp only [hstep] at hrest hrest'
      exact ih hrest hrest'

/-- Weakening the condition along a run, with an invariant that the condition keeps. -/
theorem Along.mono {M : Machine S I} {ok ok' : S → I → Prop} {P : S → Prop}
    (hpreserve : ∀ s i t, P s → ok s i → M.step s i = some t → P t)
    (himp : ∀ s i, P s → ok s i → ok' s i) {is : List I} {s : S} (halong : M.Along ok s is) (hstart : P s) :
    M.Along ok' s is := by
  induction is generalizing s with
  | nil => trivial
  | cons i is ih =>
    obtain ⟨hok, hrest⟩ := halong
    refine ⟨himp s i hstart hok, ?_⟩
    cases hstep : M.step s i with
    | none => trivial
    | some t =>
      simp only [hstep] at hrest
      exact ih hrest (hpreserve s i t hstart hok hstep)

end Machine

end transition
