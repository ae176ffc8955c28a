import Mathlib.Data.List.Basic

namespace record

variable {E B : Type}

/-- Wherever `e` stands in the record, what was recorded before it has the property. -/
def Whenever (e : E) (P : List E → Prop) (log : List E) : Prop :=
  ∀ before after, log = before ++ e :: after → P before

theorem whenever_nil (e : E) (P : List E → Prop) : Whenever e P [] := by
  intro before after heq
  simp at heq

theorem Whenever.snoc {e x : E} {P : List E → Prop} {log : List E} (h : Whenever e P log)
    (hlast : x = e → P log) : Whenever e P (log ++ [x]) := by
  intro before after heq
  rcases List.eq_nil_or_concat after with hnil | ⟨middle, last, hconcat⟩
  · subst after
    obtain ⟨hbefore, hevent⟩ := List.append_inj' heq rfl
    rw [← hbefore]
    exact hlast (List.cons.inj hevent).1
  · subst after
    have hsplit : log ++ [x] = (before ++ e :: middle) ++ [last] := by
      rw [heq, List.concat_eq_append, List.append_assoc, List.cons_append]
    exact h before middle (List.append_inj' hsplit rfl).1

theorem Whenever.append {e : E} {P : List E → Prop} {log : List E} (h : Whenever e P log)
    {more : List E} (habsent : e ∉ more) : Whenever e P (log ++ more) := by
  induction more generalizing log with
  | nil => simpa using h
  | cons x more ih =>
    have hhead : x ≠ e := fun heq => habsent (by simp [heq])
    have htail : e ∉ more := fun hmem => habsent (List.mem_cons_of_mem x hmem)
    have hsnoc := h.snoc (x := x) (fun heq => absurd heq hhead)
    simpa only [List.append_assoc, List.singleton_append] using ih hsnoc htail

/-- Once something of the first kind is recorded, nothing of the second kind is. -/
def NeverAfter (first second : E → Prop) (log : List E) : Prop :=
  log.Pairwise fun a b => first a → ¬ second b

theorem NeverAfter.append {first second : E → Prop} {log more : List E} (h : NeverAfter first second log)
    (hmore : NeverAfter first second more)
    (hquiet : (∃ a ∈ log, first a) → ∀ b ∈ more, ¬ second b) : NeverAfter first second (log ++ more) := by
  refine List.pairwise_append.mpr ⟨h, hmore, ?_⟩
  intro a ha b hb hfirst
  exact hquiet ⟨a, ha, hfirst⟩ b hb

/-- Nothing of the second kind at all. -/
theorem neverAfter_of_none {first second : E → Prop} {log : List E} (h : ∀ b ∈ log, ¬ second b) :
    NeverAfter first second log :=
  List.pairwise_of_forall_mem_list fun _ _ b hb _ => h b hb

/-- Nothing of the first kind at all. -/
theorem neverAfter_of_no_first {first second : E → Prop} {log : List E} (h : ∀ a ∈ log, ¬ first a) :
    NeverAfter first second log :=
  List.pairwise_of_forall_mem_list fun a ha _ _ hfirst => absurd hfirst (h a ha)

/-- Recording things that a projection does not see leaves the projection. -/
theorem flatMap_append_eq {f : E → List B} {log more : List E} (h : ∀ x ∈ more, f x = []) :
    (log ++ more).flatMap f = log.flatMap f := by
  rw [List.flatMap_append, List.flatMap_eq_nil_iff.mpr h, List.append_nil]

end record
