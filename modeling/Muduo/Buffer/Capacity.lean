import Muduo.Buffer.Calls

open block_copy transition
open muduo.kernel

namespace muduo.buffer

/-- Making room throws and leaves the buffer, or keeps the index invariant and the
content and provides the room. -/
def Secures (alloc : Nat → Bool) (b : Buffer) (len : Nat) : Prop :=
  match b.ensureWritableBytes alloc len with
  | .ok grown => grown.Valid ∧ grown.contents = b.contents ∧ len ≤ grown.writableBytes
  | .error .throws =>
    (Call.thrown b (.op (.ensureWritableBytes len))).Valid ∧
      (Call.thrown b (.op (.ensureWritableBytes len))).contents = b.contents
  | .error .undefined => False

namespace Buffer

/-- Of the sums that making room computes, the one for the new size is the largest. -/
theorem sizesFit_iff {self : Buffer} (hvalid : self.Valid) (len : Nat) :
    self.SizesFit len ↔ len ≤ self.writableBytes ∨ self.writerIndex_ + len < 2 ^ 64 := by
  have hwritable := hvalid.writableBytes_eq
  obtain ⟨hprepend, hreader, hwriter, hsize⟩ := hvalid
  unfold maxSize at hsize
  unfold SizesFit prependableBytes
  unfold kCheapPrepend at hprepend ⊢
  constructor
  · intro hfits
    by_cases hneed : self.writableBytes < len
    · obtain ⟨_, hright, hsum⟩ := hfits hneed
      right
      by_cases hgrow : self.writableBytes + self.readerIndex_ < len + 8
      · exact hsum hgrow
      · omega
    · exact .inl (Nat.not_lt.mp hneed)
  · intro hroom hneed
    omega

theorem secures_of_sizesFit (alloc : Nat → Bool) {self : Buffer} (hvalid : self.Valid) {len : Nat}
    (hfits : self.SizesFit len) : Secures alloc self len := by
  unfold Secures
  rcases ensureWritableBytes_cases alloc hvalid hfits with
    ⟨_, hthrows⟩ | ⟨grown, hgrown, hvalid', hcontents, hroom⟩
  · rw [hthrows]
    exact ⟨hvalid, rfl⟩
  · rw [hgrown]
    exact ⟨hvalid', hcontents, hroom⟩

/-- A sum `len + kCheapPrepend` that wraps around is below every prepended space, so that
bytes are moved to make room that cannot be there. -/
theorem not_secures_of_request_wraps (alloc : Nat → Bool) {self : Buffer} (hvalid : self.Valid) {len : Nat}
    (hlen : len < 2 ^ 64) (hwraps : 2 ^ 64 ≤ len + kCheapPrepend) : ¬ Secures alloc self len := by
  have hwritable := hvalid.writableBytes_eq
  obtain ⟨hprepend, hreader, hwriter, hsize⟩ := id hvalid
  unfold maxSize at hsize
  have hneed : self.writableBytes < len := by
    unfold kCheapPrepend at hwraps
    omega
  have hmove : ¬ addSize self.writableBytes self.prependableBytes < addSize len kCheapPrepend := by
    have hleft : addSize self.writableBytes self.prependableBytes =
        self.writableBytes + self.prependableBytes := addSize_eq (by unfold prependableBytes; omega)
    rw [hleft]
    unfold addSize prependableBytes
    unfold kCheapPrepend at hprepend hwraps ⊢
    omega
  unfold Secures ensureWritableBytes makeSpace
  rw [if_pos hneed, if_neg hmove]
  unfold copyWithin
  split_ifs with hcopy
  · rintro ⟨hvalid', _, hroom⟩
    rw [hvalid'.writableBytes_eq] at hroom
    have hmoved : (copyForward self.buffer_ self.readerIndex_ kCheapPrepend
      (self.writerIndex_ - self.readerIndex_)).length ≤ 2 ^ 63 - 1 := hvalid'.size_le
    simp only at hroom
    unfold kCheapPrepend at hwraps
    omega
  · exact id

/-- A new size that wraps around is in front of the writer, where the vector is cut. -/
theorem not_secures_of_size_wraps (alloc : Nat → Bool) {self : Buffer} (hvalid : self.Valid) {len : Nat}
    (hlen : len + kCheapPrepend < 2 ^ 64) (hwraps : 2 ^ 64 ≤ self.writerIndex_ + len) :
    ¬ Secures alloc self len := by
  have hwritable := hvalid.writableBytes_eq
  obtain ⟨hprepend, hreader, hwriter, hsize⟩ := id hvalid
  unfold maxSize at hsize
  have hneed : self.writableBytes < len := by omega
  have hgrow : addSize self.writableBytes self.prependableBytes < addSize len kCheapPrepend := by
    rw [addSize_eq hlen, addSize_eq (by unfold prependableBytes; omega)]
    unfold prependableBytes
    omega
  have hcut : addSize self.writerIndex_ len < self.writerIndex_ := by
    unfold addSize
    omega
  have hshrink : resize alloc self.buffer_ (addSize self.writerIndex_ len) =
      .ok (self.buffer_.take (addSize self.writerIndex_ len) ++
        List.replicate (addSize self.writerIndex_ len - self.buffer_.length) 0) :=
    if_pos (.inl (by omega))
  unfold Secures ensureWritableBytes makeSpace
  rw [if_pos hneed, if_pos hgrow, hshrink]
  rintro ⟨hvalid', _⟩
  have hbehind := hvalid'.writer_le
  simp only [List.length_append, List.length_take, List.length_replicate] at hbehind
  omega

theorem secures_iff (alloc : Nat → Bool) {self : Buffer} (hvalid : self.Valid) {len : Nat} (hlen : len < 2 ^ 64) :
    Secures alloc self len ↔ len ≤ self.writableBytes ∨ self.writerIndex_ + len < 2 ^ 64 := by
  refine ⟨fun hsecures => ?_, fun hroom => secures_of_sizesFit alloc hvalid ((sizesFit_iff hvalid len).mpr hroom)⟩
  by_contra hwraps
  obtain ⟨_, hsize⟩ := not_or.mp hwraps
  by_cases hrequest : len + kCheapPrepend < 2 ^ 64
  · exact not_secures_of_size_wraps alloc hvalid hrequest (Nat.not_lt.mp hsize) hsecures
  · exact not_secures_of_request_wraps alloc hvalid hlen (Nat.not_lt.mp hrequest) hsecures

/-- The constructor makes room for the prepended space unless its sum wraps around. -/
theorem construct_prepends_iff {initialSize : Nat} (hinitial : initialSize < 2 ^ 64) :
    (∀ alloc first, construct alloc initialSize = .ok first → kCheapPrepend ≤ first.buffer_.length) ↔
      kCheapPrepend + initialSize < 2 ^ 64 := by
  constructor
  · intro hall
    by_contra hwraps
    have hsum : addSize kCheapPrepend initialSize = kCheapPrepend + initialSize - 2 ^ 64 := by
      unfold addSize
      unfold kCheapPrepend at hwraps ⊢
      omega
    have hgrant : grants (fun _ => true) (addSize kCheapPrepend initialSize) = true := by
      rw [hsum]
      simp only [grants, Bool.and_true, decide_eq_true_eq]
      unfold kCheapPrepend maxSize
      omega
    have hlength := hall (fun _ => true) _ (by
      simp only [construct, resize, hgrant, or_true, if_true, Bind.bind, Except.bind]
      rfl)
    simp only [List.length_append, List.length_take, List.length_replicate, List.length_nil, hsum] at hlength
    unfold kCheapPrepend at hlength
    omega
  · intro hfits alloc first hfirst
    obtain ⟨hvalid, _, _⟩ := construct_ok hfits hfirst
    exact Nat.le_trans hvalid.prepend_le (Nat.le_trans hvalid.reader_le hvalid.writer_le)

end Buffer

/-- The sums of sizes decide whether a buffer is safe. The constructor leaves room for the
prepended space exactly if its sum does not wrap around. Whatever calls follow it without
a wrap, making room is safe exactly if the room is there or the size to grow to is in
range. -/
theorem capacity_safe_iff {initialSize : Nat} (hinitial : initialSize < 2 ^ 64) :
    ((∀ alloc first, Buffer.construct alloc initialSize = .ok first →
        kCheapPrepend ≤ first.buffer_.length) ↔ kCheapPrepend + initialSize < 2 ^ 64) ∧
    (kCheapPrepend + initialSize < 2 ^ 64 → ∀ alloc first is b,
      Buffer.construct alloc initialSize = .ok first → (calls alloc).run first is = some b →
      (calls alloc).Along NoWrap first is → ∀ len < 2 ^ 64,
        (Secures alloc b len ↔ len ≤ b.writableBytes ∨ b.writerIndex_ + len < 2 ^ 64)) := by
  refine ⟨Buffer.construct_prepends_iff hinitial, ?_⟩
  intro hsize alloc first is b hfirst hrun hnowrap len hlen
  obtain ⟨hvalid, _, _⟩ := Buffer.construct_ok hsize hfirst
  obtain ⟨hlast, _⟩ := calls_run hvalid hrun hnowrap
  exact Buffer.secures_iff alloc hlast hlen

/-- Room for 2^64 - 9 bytes makes the new size wrap around to 1, so that the vector is cut
in front of the writer. Room for 2^64 - 8 bytes makes the test for growth wrap around, so
that nothing but the consumed byte is gained. An initial size of 2^64 - 8 gives a vector
of no bytes. -/
theorem capacity_safe_iff_wraps :
    (∃ first, Buffer.construct (fun _ => true) 4 = .ok first ∧
      (calls fun _ => true).run first [.op (.append [1, 2]), .op (.retrieve 1)] = some twelve) ∧
    twelve.ensureWritableBytes (fun _ => true) (2 ^ 64 - 9) = .ok ⟨[0], 9, 10⟩ ∧
    ¬ Secures (fun _ => true) twelve (2 ^ 64 - 9) ∧
    twelve.ensureWritableBytes (fun _ => true) (2 ^ 64 - 8) = .ok ⟨[0, 0, 0, 0, 0, 0, 0, 0, 2, 2, 0, 0], 8, 9⟩ ∧
    ¬ Secures (fun _ => true) twelve (2 ^ 64 - 8) ∧
    Buffer.construct (fun _ => true) (2 ^ 64 - 8) = .ok ⟨[], 8, 8⟩ := by
  refine ⟨⟨_, rfl, rfl⟩, by decide, ?_, by decide, ?_, by decide⟩
  · exact Buffer.not_secures_of_size_wraps _ (by decide) (by decide) (by decide)
  · exact Buffer.not_secures_of_request_wraps _ (by decide) (by decide) (by decide)

theorem capacity_safe_iff_twelve :
    ∃ first, Buffer.construct (fun _ => true) 4 = .ok first ∧
      (calls fun _ => true).run first [.op (.append [1, 2]), .op (.retrieve 1)] = some twelve ∧
      (Secures (fun _ => true) twelve 3 ↔ 3 ≤ twelve.writableBytes ∨ twelve.writerIndex_ + 3 < 2 ^ 64) :=
  ⟨_, rfl, rfl, (@capacity_safe_iff 4 (by decide)).2 (by decide) (fun _ => true) _
    [.op (.append [1, 2]), .op (.retrieve 1)] twelve rfl rfl (by decide) 3 (by decide)⟩

end muduo.buffer
