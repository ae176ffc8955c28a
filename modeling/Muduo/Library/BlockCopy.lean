import Mathlib.Data.List.Basic

namespace block_copy

variable {α : Type}

/-- Copy `count` cells from position `src` to position `dst` of one array, one
cell at a time and in increasing order, as an in-place forward copy does. -/
def copyForward (cells : List α) (src dst : Nat) : Nat → List α
  | 0 => cells
  | count + 1 =>
    match cells[src]? with
    | none => cells
    | some x => copyForward (cells.set dst x) (src + 1) (dst + 1) count

@[simp] theorem length_copyForward (cells : List α) (src dst count : Nat) :
    (copyForward cells src dst count).length = cells.length := by
  induction count generalizing cells src dst with
  | zero => rfl
  | succ count ih =>
    simp only [copyForward]
    split
    · rfl
    · rw [ih, List.length_set]

/-- The loop invariant of the forward copy. A destination at or before the
source is never read again after it has been overwritten, so every cell of the
destination range receives the original source cell, however far the two ranges
overlap. -/
theorem getElem?_copyForward (cells : List α) (src dst count : Nat)
    (hbefore : dst ≤ src) (hinside : src + count ≤ cells.length) (i : Nat) :
    (copyForward cells src dst count)[i]? =
      if dst ≤ i ∧ i < dst + count then cells[i - dst + src]? else cells[i]? := by
  induction count generalizing cells src dst with
  | zero =>
    rw [if_neg (by omega)]
    rfl
  | succ count ih =>
    have hread : cells[src]? = some cells[src] := List.getElem?_eq_getElem (by omega)
    simp only [copyForward, hread]
    rw [ih _ _ _ (by omega) (by rw [List.length_set]; omega)]
    by_cases hfirst : i = dst
    · subst i
      rw [if_neg (by omega), if_pos (by omega)]
      simp [hread, show dst < cells.length by omega]
    · by_cases hrest : dst ≤ i ∧ i < dst + (count + 1)
      · rw [if_pos (by omega), if_pos hrest, List.getElem?_set_ne (by omega)]
        congr 1
        omega
      · rw [if_neg (by omega), if_neg hrest, List.getElem?_set_ne (by omega)]

/-- A forward copy towards the front moves the source range as a whole. -/
theorem copyForward_eq (cells : List α) (src dst count : Nat)
    (hbefore : dst ≤ src) (hinside : src + count ≤ cells.length) :
    copyForward cells src dst count =
      cells.take dst ++ (cells.drop src).take count ++ cells.drop (dst + count) := by
  apply List.ext_getElem?
  intro i
  rw [getElem?_copyForward cells src dst count hbefore hinside]
  have hdst : (cells.take dst).length = dst := by rw [List.length_take]; omega
  have hmoved : ((cells.drop src).take count).length = count := by
    rw [List.length_take, List.length_drop]
    omega
  rw [List.append_assoc]
  by_cases hlow : i < dst
  · rw [if_neg (by omega), List.getElem?_append_left (by omega), List.getElem?_take_of_lt hlow]
  · rw [List.getElem?_append_right (by omega), hdst]
    by_cases hhigh : i < dst + count
    · rw [if_pos (by omega), List.getElem?_append_left (by omega),
        List.getElem?_take_of_lt (by omega), List.getElem?_drop, Nat.add_comm]
    · rw [if_neg (by omega), List.getElem?_append_right (by omega), hmoved, List.getElem?_drop]
      congr 1
      omega

/-- Overwrite the cells from position `pos` on by separate data. -/
def overwrite (cells : List α) (pos : Nat) (data : List α) : List α :=
  cells.take pos ++ data ++ cells.drop (pos + data.length)

theorem length_overwrite (cells : List α) (pos : Nat) (data : List α)
    (hinside : pos + data.length ≤ cells.length) :
    (overwrite cells pos data).length = cells.length := by
  simp only [overwrite, List.length_append, List.length_take, List.length_drop]
  omega

/-- The cells of the half-open range `[first, last)`. -/
def slice (cells : List α) (first last : Nat) : List α :=
  (cells.drop first).take (last - first)

theorem length_slice (cells : List α) {first last : Nat} (hinside : last ≤ cells.length) :
    (slice cells first last).length = last - first := by
  rw [slice, List.length_take, List.length_drop]
  omega

@[simp] theorem slice_self (cells : List α) (first : Nat) : slice cells first first = [] := by
  simp [slice]

theorem drop_slice (cells : List α) (first last count : Nat) :
    (slice cells first last).drop count = slice cells (first + count) last := by
  rw [slice, slice, List.drop_take, List.drop_drop]
  congr 1
  omega

/-- Writing just behind a range extends the range by the written data. -/
theorem slice_overwrite (cells : List α) {first pos : Nat} (data : List α)
    (hfirst : first ≤ pos) (hpos : pos ≤ cells.length) :
    slice (overwrite cells pos data) first (pos + data.length) = slice cells first pos ++ data := by
  have htake : (cells.take pos).length = pos := by rw [List.length_take]; omega
  have hdrop : (cells.take pos).drop first = (cells.drop first).take (pos - first) := by
    rw [List.drop_take]
  rw [slice, overwrite, List.append_assoc, List.drop_append_of_le_length (by omega), hdrop,
    ← List.append_assoc, List.take_append_of_le_length]
  · rw [List.take_of_length_le]
    · rfl
    · simp only [List.length_append, List.length_take, List.length_drop]
      omega
  · simp only [List.length_append, List.length_take, List.length_drop]
    omega

/-- Cells behind a range do not matter to it. -/
theorem slice_append_left (cells more : List α) {first last : Nat} (hinside : last ≤ cells.length) :
    slice (cells ++ more) first last = slice cells first last := by
  by_cases hfirst : first ≤ cells.length
  · rw [slice, slice, List.drop_append_of_le_length hfirst, List.take_append_of_le_length]
    rw [List.length_drop]
    omega
  · rw [slice, slice, show last - first = 0 by omega, List.take_zero, List.take_zero]

/-- The destination of a forward copy towards the front holds the old source range. -/
theorem slice_copyForward (cells : List α) {src dst last : Nat} (hbefore : dst ≤ src)
    (hrange : src ≤ last) (hinside : last ≤ cells.length) :
    slice (copyForward cells src dst (last - src)) dst (dst + (last - src)) = slice cells src last := by
  have hdst : (cells.take dst).length = dst := by rw [List.length_take]; omega
  have hmoved : ((cells.drop src).take (last - src)).length = last - src := by
    rw [List.length_take, List.length_drop]
    omega
  rw [copyForward_eq cells src dst _ hbefore (by omega), slice, List.append_assoc,
    List.drop_append_of_le_length (by omega), List.drop_of_length_le (by omega), List.nil_append,
    List.take_append_of_le_length (by omega), List.take_of_length_le (by omega)]
  rfl

end block_copy
