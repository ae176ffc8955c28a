import Mathlib.Logic.Function.Basic

namespace table

variable {K V : Type} [DecidableEq K] {entries : K → Option V} {key key' : K} {value value' : V}

/-- An entry of a table in which one has been set is that one, or an old one under another key. -/
theorem update_some_iff : Function.update entries key (some value) key' = some value' ↔
    key' = key ∧ value = value' ∨ key' ≠ key ∧ entries key' = some value' := by
  by_cases hkey : key' = key
  · subst hkey
    simp
  · simp [hkey]

/-- An entry of a table in which one has been erased is an old one under another key. -/
theorem update_none_iff : Function.update entries key none key' = some value' ↔
    key' ≠ key ∧ entries key' = some value' := by
  by_cases hkey : key' = key
  · subst hkey
    simp
  · simp [hkey]

end table
