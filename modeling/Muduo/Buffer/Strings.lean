import Muduo.Buffer.Calls

open block_copy transition
open muduo.kernel

namespace muduo.buffer

/-- The readable bytes are the returned string and what stays readable. An exception
returns nothing. -/
def TakesOut (alloc : Nat → Bool) (b : Buffer) (len : Nat) : Prop :=
  match b.retrieveAsString alloc len with
  | .ok (out, rest) => b.contents = out ++ rest.contents
  | .error .throws => True
  | .error .undefined => False

namespace Buffer

theorem takesOut_of_refused {alloc : Nat → Bool} {len : Nat} (self : Buffer)
    (hrefused : grants alloc len = false) : TakesOut alloc self len := by
  have hthrows : self.retrieveAsString alloc len = .error .throws :=
    if_neg (by rw [hrefused]; exact Bool.false_ne_true)
  unfold TakesOut
  rw [hthrows]
  trivial

/-- Of at most the readable bytes, `retrieve` drops as many as the string takes. -/
theorem takesOut_of_le (alloc : Nat → Bool) {self : Buffer} (hvalid : self.Valid) {len : Nat}
    (hlen : len ≤ self.readableBytes) : TakesOut alloc self len := by
  cases hgrant : grants alloc len with
  | false => exact takesOut_of_refused self hgrant
  | true =>
    have halloc : alloc len = true := by
      simp only [grants, Bool.and_eq_true] at hgrant
      exact hgrant.2
    unfold TakesOut
    rw [retrieveAsString_eq hvalid hlen halloc]
    simp only [(retrieve_spec hvalid len).2, List.take_append_drop]

/-- A longer string reaches behind the readable bytes. -/
theorem not_takesOut_of_lt {alloc : Nat → Bool} {self : Buffer} (hvalid : self.Valid) {len : Nat}
    (hlen : self.readableBytes < len) (hgrant : grants alloc len = true) : ¬ TakesOut alloc self len := by
  unfold TakesOut
  cases htake : self.retrieveAsString alloc len with
  | error fault =>
    unfold retrieveAsString at htake
    rw [if_pos hgrant] at htake
    split at htake
    · cases htake
    · cases htake
      exact id
  | ok result =>
    obtain ⟨out, rest⟩ := result
    obtain ⟨_, hinside, rfl, _⟩ := retrieveAsString_ok htake
    intro hcontents
    have hlength := congrArg List.length hcontents
    rw [List.length_append, length_slice _ hinside, hvalid.length_contents] at hlength
    omega

theorem takesOut_iff (alloc : Nat → Bool) {self : Buffer} (hvalid : self.Valid) (len : Nat) :
    TakesOut alloc self len ↔ len ≤ self.readableBytes ∨ grants alloc len = false := by
  constructor
  · intro htakes
    by_contra hlonger
    obtain ⟨hmore, hgranted⟩ := not_or.mp hlonger
    exact not_takesOut_of_lt hvalid (Nat.not_le.mp hmore) (by simpa using hgranted) htakes
  · rintro (hlen | hrefused)
    · exact takesOut_of_le alloc hvalid hlen
    · exact takesOut_of_refused self hrefused

end Buffer

/-- Wherever a run of calls has led, taking out `len` bytes as a string splits the readable
bytes exactly if that many are readable, or if the string is refused its storage. -/
theorem strings_taken_out_iff (alloc : Nat → Bool) {initialSize : Nat}
    (hsize : kCheapPrepend + initialSize < 2 ^ 64) {first b : Buffer}
    (hfirst : Buffer.construct alloc initialSize = .ok first) {is : List Call}
    (hrun : (calls alloc).run first is = some b) (hnowrap : (calls alloc).Along NoWrap first is) (len : Nat) :
    TakesOut alloc b len ↔ len ≤ b.readableBytes ∨ grants alloc len = false := by
  obtain ⟨hvalid, _, _⟩ := Buffer.construct_ok hsize hfirst
  obtain ⟨hlast, _⟩ := calls_run hvalid hrun hnowrap
  exact Buffer.takesOut_iff alloc hlast len

/-- Of two bytes one has been consumed. Taking out three returns the other one and two that
have never been written, and taking out nine reads beyond the vector. -/
theorem strings_taken_out_iff_stale :
    (∃ first, Buffer.construct (fun _ => true) 4 = .ok first ∧
      (calls fun _ => true).run first [.op (.append [1, 2]), .op (.retrieve 1)] = some twelve) ∧
    twelve.contents = [2] ∧
    twelve.retrieveAsString (fun _ => true) 3 = .ok ([2, 0, 0], twelve.retrieveAll) ∧
    ¬ TakesOut (fun _ => true) twelve 3 ∧
    twelve.retrieveAsString (fun _ => true) 9 = .error .undefined ∧
    ¬ TakesOut (fun _ => true) twelve 9 := by
  refine ⟨⟨_, rfl, rfl⟩, rfl, rfl, ?_, rfl, ?_⟩
  · exact Buffer.not_takesOut_of_lt (by decide) (by decide) (by decide)
  · exact Buffer.not_takesOut_of_lt (by decide) (by decide) (by decide)

theorem strings_taken_out_iff_twelve :
    ∃ first, Buffer.construct (fun _ => true) 4 = .ok first ∧
      (calls fun _ => true).run first [.op (.append [1, 2]), .op (.retrieve 1)] = some twelve ∧
      (TakesOut (fun _ => true) twelve 1 ↔ 1 ≤ twelve.readableBytes ∨ grants (fun _ => true) 1 = false) :=
  ⟨_, rfl, rfl, @strings_taken_out_iff (fun _ => true) 4 (by decide) _ twelve rfl
    [.op (.append [1, 2]), .op (.retrieve 1)] rfl (by decide) 1⟩

end muduo.buffer
