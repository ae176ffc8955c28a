import Mathlib.Data.Int.CardIntervalMod
import Mathlib.Data.List.Nodup

namespace rotation

variable {α : Type}

/-- The cells that a cursor going round an array visits, in `count` steps from
position `first` on. -/
def visited (cells : List α) (first count : Nat) : List α :=
  (List.range count).filterMap fun k => cells[(first + k) % cells.length]?

@[simp] theorem visited_zero (cells : List α) (first : Nat) : visited cells first 0 = [] := rfl

/-- One step more visits the cell that the cursor has come to. -/
theorem visited_succ {cells : List α} {first count : Nat} {cell : α}
    (hcell : cells[(first + count) % cells.length]? = some cell) :
    visited cells first (count + 1) = visited cells first count ++ [cell] := by
  unfold visited
  rw [List.range_succ, List.filterMap_append]
  simp [hcell]

theorem length_visited {cells : List α} (hcells : cells ≠ []) (first count : Nat) :
    (visited cells first count).length = count := by
  induction count with
  | zero => rfl
  | succ count ih =>
    have hinside := Nat.mod_lt (first + count) (List.length_pos_iff.mpr hcells)
    rw [visited_succ (List.getElem?_eq_getElem hinside), List.length_append, ih]
    rfl

/-- The cursor comes to a position at the steps of one residue. -/
theorem mod_eq_iff_modEq {first position size : Nat} (hfirst : first ≤ size) (hposition : position < size)
    (k : Nat) : (first + k) % size = position ↔ k ≡ position + (size - first) [MOD size] := by
  have hround : first + (position + (size - first)) = position + size := by omega
  have hshift : first + k ≡ first + (position + (size - first)) [MOD size] ↔
      k ≡ position + (size - first) [MOD size] := Nat.ModEq.add_iff_left rfl
  rw [← hshift, hround, Nat.ModEq, Nat.add_mod_right, Nat.mod_eq_of_lt hposition]

/-- The visits of a cell are the steps of one residue. -/
theorem count_visited [DecidableEq α] {cells : List α} (hnodup : cells.Nodup) {first position : Nat}
    (hfirst : first ≤ cells.length) (hposition : position < cells.length) (count : Nat) :
    (visited cells first count).count cells[position] =
      Nat.count (· ≡ position + (cells.length - first) [MOD cells.length]) count := by
  rw [visited, List.count_filterMap, Nat.count]
  refine List.countP_congr fun k _ => ?_
  have hinside : (first + k) % cells.length < cells.length := Nat.mod_lt _ (Nat.zero_lt_of_lt hposition)
  rw [List.getElem?_eq_getElem hinside, decide_eq_true_iff, ← mod_eq_iff_modEq hfirst hposition k]
  simp [hnodup.getElem_inj_iff]

/-- A cursor that goes round visits all cells evenly: among any number of steps in a row,
from any position, the visits of a cell are the steps divided by the cells, rounded
down or up. -/
theorem count_visited_fair [DecidableEq α] {cells : List α} (hnodup : cells.Nodup) {first : Nat}
    (hfirst : first ≤ cells.length) {cell : α} (hcell : cell ∈ cells) (count : Nat) :
    count / cells.length ≤ (visited cells first count).count cell ∧
      (visited cells first count).count cell ≤ (count + cells.length - 1) / cells.length := by
  obtain ⟨position, hposition, rfl⟩ := List.getElem_of_mem hcell
  have hpositive : 0 < cells.length := Nat.zero_lt_of_lt hposition
  rw [count_visited hnodup hfirst hposition, Nat.count_modEq_card count hpositive]
  refine ⟨Nat.le_add_right _ _, ?_⟩
  split
  · next hextra =>
    have hrest : 0 < count % cells.length := Nat.zero_lt_of_lt hextra
    have hcount := Nat.div_add_mod count cells.length
    rw [Nat.le_div_iff_mul_le hpositive, Nat.add_mul, Nat.one_mul, Nat.mul_comm]
    omega
  · exact Nat.div_le_div_right (by omega)

end rotation
