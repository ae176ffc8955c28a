import Muduo.Buffer.Basic

open block_copy
open muduo.kernel

namespace muduo.buffer.Buffer

/-- The index invariant. The bound on the size holds of every vector. -/
structure Valid (b : Buffer) : Prop where
  prepend_le : kCheapPrepend ≤ b.readerIndex_
  reader_le : b.readerIndex_ ≤ b.writerIndex_
  writer_le : b.writerIndex_ ≤ b.buffer_.length
  size_le : b.buffer_.length ≤ maxSize

instance (self : Buffer) : Decidable self.Valid :=
  decidable_of_iff (kCheapPrepend ≤ self.readerIndex_ ∧ self.readerIndex_ ≤ self.writerIndex_ ∧
      self.writerIndex_ ≤ self.buffer_.length ∧ self.buffer_.length ≤ maxSize)
    ⟨fun ⟨h₁, h₂, h₃, h₄⟩ => ⟨h₁, h₂, h₃, h₄⟩,
     fun ⟨h₁, h₂, h₃, h₄⟩ => ⟨h₁, h₂, h₃, h₄⟩⟩

/-- The readable bytes. -/
def contents (self : Buffer) : List UInt8 :=
  slice self.buffer_ self.readerIndex_ self.writerIndex_

theorem Valid.readableBytes_eq {self : Buffer} (hvalid : self.Valid) :
    self.readableBytes = self.writerIndex_ - self.readerIndex_ :=
  subSize_eq hvalid.reader_le

theorem Valid.writableBytes_eq {self : Buffer} (hvalid : self.Valid) :
    self.writableBytes = self.buffer_.length - self.writerIndex_ :=
  subSize_eq hvalid.writer_le

theorem Valid.length_contents {self : Buffer} (hvalid : self.Valid) :
    self.contents.length = self.readableBytes := by
  rw [hvalid.readableBytes_eq]
  exact length_slice self.buffer_ hvalid.writer_le

theorem Valid.readableBytes_eq_zero_iff {self : Buffer} (hvalid : self.Valid) :
    self.readableBytes = 0 ↔ self.contents = [] := by
  rw [← hvalid.length_contents, List.length_eq_zero_iff]

/-- A vector that has to grow is given its storage, or throws. -/
theorem resize_grow (alloc : Nat → Bool) {cells : List UInt8} {size : Nat} (hgrow : cells.length < size) :
    resize alloc cells size =
      if grants alloc size then .ok (cells ++ List.replicate (size - cells.length) 0) else .error .throws := by
  have hlarger : ¬ size ≤ cells.length := by omega
  simp only [resize, hlarger, false_or]
  rw [List.take_of_length_le (by omega)]

/-- Construction either throws or gives an empty valid buffer. -/
theorem construct_cases (alloc : Nat → Bool) (initialSize : Nat)
    (hfits : kCheapPrepend + initialSize < 2 ^ 64) :
    (grants alloc (kCheapPrepend + initialSize) = false ∧
      construct alloc initialSize = .error .throws) ∨
    ∃ self, construct alloc initialSize = .ok self ∧ self.Valid ∧ self.contents = [] ∧
      self.buffer_.length = kCheapPrepend + initialSize := by
  have hgrow : ([] : List UInt8).length < kCheapPrepend + initialSize := Nat.add_pos_left (by decide) _
  simp only [construct, addSize_eq hfits, resize_grow alloc hgrow]
  cases hgrant : grants alloc (kCheapPrepend + initialSize) with
  | false => exact .inl ⟨rfl, rfl⟩
  | true =>
    have hmax : kCheapPrepend + initialSize ≤ maxSize := by
      simp only [grants, Bool.and_eq_true, decide_eq_true_eq] at hgrant
      exact hgrant.1
    have hlength : ([] ++ List.replicate (kCheapPrepend + initialSize - ([] : List UInt8).length)
        (0 : UInt8)).length = kCheapPrepend + initialSize := by simp
    refine .inr ⟨_, rfl, ⟨Nat.le_refl _, Nat.le_refl _, ?_, ?_⟩, slice_self _ _, hlength⟩
    · simp only [hlength]
      omega
    · simpa only [hlength] using hmax

/-- A buffer that has been constructed is empty and valid. -/
theorem construct_ok {alloc : Nat → Bool} {initialSize : Nat} (hfits : kCheapPrepend + initialSize < 2 ^ 64)
    {first : Buffer} (hfirst : construct alloc initialSize = .ok first) :
    first.Valid ∧ first.contents = [] ∧ first.buffer_.length = kCheapPrepend + initialSize := by
  rcases construct_cases alloc initialSize hfits with ⟨_, hthrows⟩ | ⟨self, hself, hvalid, hempty, hlength⟩
  · rw [hfirst] at hthrows
    cases hthrows
  · rw [hfirst] at hself
    cases hself
    exact ⟨hvalid, hempty, hlength⟩

theorem retrieveAll_valid {self : Buffer} (hvalid : self.Valid) : self.retrieveAll.Valid := by
  obtain ⟨hprepend, hreader, hwriter, hsize⟩ := hvalid
  exact ⟨Nat.le_refl _, Nat.le_refl _, Nat.le_trans hprepend (Nat.le_trans hreader hwriter), hsize⟩

theorem retrieveAll_contents (self : Buffer) : self.retrieveAll.contents = [] :=
  slice_self _ _

/-- Consuming drops the given number of bytes from the front, and all of them
when fewer are readable. -/
theorem retrieve_spec {self : Buffer} (hvalid : self.Valid) (len : Nat) :
    (self.retrieve len).Valid ∧ (self.retrieve len).contents = self.contents.drop len := by
  have hreadable := hvalid.readableBytes_eq
  unfold retrieve
  split
  · next hpartial =>
    obtain ⟨hprepend, hreader, hwriter, hsize⟩ := hvalid
    unfold maxSize at hsize
    have hindex : addSize self.readerIndex_ len = self.readerIndex_ + len := addSize_eq (by omega)
    rw [hindex]
    refine ⟨⟨?_, ?_, hwriter, ?_⟩, (drop_slice _ _ _ _).symm⟩
    · exact Nat.le_trans hprepend (Nat.le_add_right _ _)
    · change self.readerIndex_ + len ≤ self.writerIndex_
      omega
    · change self.buffer_.length ≤ maxSize
      unfold maxSize
      omega
  · next hall =>
    refine ⟨retrieveAll_valid hvalid, ?_⟩
    rw [retrieveAll_contents, List.drop_of_length_le]
    rw [hvalid.length_contents]
    omega

/-- Taking out at most the readable bytes returns exactly the dropped front. -/
theorem retrieveAsString_eq {alloc : Nat → Bool} {self : Buffer} (hvalid : self.Valid) {len : Nat}
    (hlen : len ≤ self.readableBytes) (halloc : alloc len = true) :
    self.retrieveAsString alloc len = .ok (self.contents.take len, self.retrieve len) := by
  have hreadable := hvalid.readableBytes_eq
  obtain ⟨_, hreader, hwriter, hsize⟩ := hvalid
  have hgrant : grants alloc len = true := by
    simp only [grants, halloc, Bool.and_true, decide_eq_true_eq]
    omega
  have hinside : self.readerIndex_ + len ≤ self.buffer_.length := by omega
  simp only [retrieveAsString, hgrant, if_true, if_pos hinside, contents, slice, List.take_take]
  congr 3
  omega

/-- None of the sums that `ensureWritableBytes(len)` computes exceeds 64 bits. -/
def SizesFit (self : Buffer) (len : Nat) : Prop :=
  self.writableBytes < len →
    self.writableBytes + self.prependableBytes < 2 ^ 64 ∧ len + kCheapPrepend < 2 ^ 64 ∧
    (self.writableBytes + self.prependableBytes < len + kCheapPrepend → self.writerIndex_ + len < 2 ^ 64)

/-- The storage that `ensureWritableBytes(len)` asks for, if any, is available. -/
def Allocates (alloc : Nat → Bool) (self : Buffer) (len : Nat) : Prop :=
  self.writableBytes < len → self.writableBytes + self.prependableBytes < len + kCheapPrepend →
    grants alloc (self.writerIndex_ + len) = true

instance (self : Buffer) (len : Nat) : Decidable (self.SizesFit len) := by
  unfold SizesFit
  infer_instance

instance (alloc : Nat → Bool) (self : Buffer) (len : Nat) : Decidable (self.Allocates alloc len) := by
  unfold Allocates
  infer_instance

/-- No vector or string of legal size makes a size computation wrap. -/
theorem Valid.sizesFit {self : Buffer} (hvalid : self.Valid) {len : Nat} (hlen : len ≤ maxSize) :
    self.SizesFit len := by
  intro _
  have hwritable := hvalid.writableBytes_eq
  obtain ⟨_, hreader, hwriter, hsize⟩ := hvalid
  unfold maxSize at hsize hlen
  unfold prependableBytes kCheapPrepend
  omega

/-- Growing throws, or keeps the indices and everything in front of the writer. -/
theorem makeSpace_grow {alloc : Nat → Bool} {self : Buffer} (hvalid : self.Valid) {len : Nat}
    (hfits : self.SizesFit len) (hneed : self.writableBytes < len)
    (hgrow : self.writableBytes + self.prependableBytes < len + kCheapPrepend) :
    self.makeSpace alloc len =
      if grants alloc (self.writerIndex_ + len) then
        .ok { self with
          buffer_ := self.buffer_ ++ List.replicate (self.writerIndex_ + len - self.buffer_.length) 0 }
      else .error .throws := by
  obtain ⟨hleft, hright, hsum⟩ := hfits hneed
  have hwritable := hvalid.writableBytes_eq
  have hwriter := hvalid.writer_le
  simp only [makeSpace, addSize_eq hleft, addSize_eq hright, if_pos hgrow, addSize_eq (hsum hgrow)]
  rw [resize_grow alloc (by omega)]
  split <;> rfl

/-- The buffer with its readable bytes moved to the front of the usable space. -/
def compact (self : Buffer) : Buffer where
  buffer_ := copyForward self.buffer_ self.readerIndex_ kCheapPrepend (self.writerIndex_ - self.readerIndex_)
  readerIndex_ := kCheapPrepend
  writerIndex_ := kCheapPrepend + (self.writerIndex_ - self.readerIndex_)

theorem length_compact (self : Buffer) : self.compact.buffer_.length = self.buffer_.length :=
  length_copyForward _ _ _ _

theorem compact_valid {self : Buffer} (hvalid : self.Valid) : self.compact.Valid := by
  obtain ⟨hprepend, hreader, hwriter, hsize⟩ := hvalid
  refine ⟨Nat.le_refl _, Nat.le_add_right _ _, ?_, ?_⟩ <;> rw [length_compact]
  · change kCheapPrepend + (self.writerIndex_ - self.readerIndex_) ≤ _
    omega
  · exact hsize

theorem compact_contents {self : Buffer} (hvalid : self.Valid) : self.compact.contents = self.contents :=
  slice_copyForward _ hvalid.prepend_le hvalid.reader_le hvalid.writer_le

/-- Moving the readable bytes to the front. The two tests that lead here make the
source range begin strictly behind the destination, as `std::copy` requires. -/
theorem makeSpace_move (alloc : Nat → Bool) {self : Buffer} (hvalid : self.Valid) {len : Nat}
    (hfits : self.SizesFit len) (hneed : self.writableBytes < len)
    (hmove : ¬ self.writableBytes + self.prependableBytes < len + kCheapPrepend) :
    kCheapPrepend < self.readerIndex_ ∧ self.makeSpace alloc len = .ok self.compact := by
  obtain ⟨hleft, hright, _⟩ := hfits hneed
  have hreadable := hvalid.readableBytes_eq
  obtain ⟨hprepend, hreader, hwriter, hsize⟩ := hvalid
  have hstrict : kCheapPrepend < self.readerIndex_ := by
    unfold prependableBytes at hmove
    omega
  have hcopy : copyWithin self.buffer_ self.readerIndex_ self.writerIndex_ kCheapPrepend =
      .ok self.compact.buffer_ := if_pos (by omega)
  have hindex : addSize kCheapPrepend self.readableBytes = self.compact.writerIndex_ := by
    rw [hreadable]
    unfold maxSize at hsize
    exact addSize_eq (by omega)
  refine ⟨hstrict, ?_⟩
  simp only [makeSpace, addSize_eq hleft, addSize_eq hright, if_neg hmove, hcopy, hindex]
  rfl

/-- In-place compaction is a correct overlapping move. Where the two capacity tests lead
to it and no sum exceeds 64 bits, the destination begins in front of the source range.
The copy, one byte at a time inside one array, then leaves exactly the readable bytes at
`kCheapPrepend`, however far the ranges overlap, and the room asked for behind them. -/
theorem compaction_moves (alloc : Nat → Bool) {self : Buffer} (hvalid : self.Valid) {len : Nat}
    (hneed : self.writableBytes < len) (hfits : len + kCheapPrepend < 2 ^ 64)
    (hmove : ¬ addSize self.writableBytes self.prependableBytes < addSize len kCheapPrepend) :
    kCheapPrepend < self.readerIndex_ ∧
    ¬ (self.readerIndex_ ≤ kCheapPrepend ∧ kCheapPrepend < self.writerIndex_) ∧
    ∃ moved, self.ensureWritableBytes alloc len = .ok moved ∧ moved.Valid ∧
      moved.buffer_ = copyForward self.buffer_ self.readerIndex_ kCheapPrepend self.readableBytes ∧
      slice moved.buffer_ kCheapPrepend (kCheapPrepend + self.readableBytes) =
        slice self.buffer_ self.readerIndex_ self.writerIndex_ ∧
      moved.readerIndex_ = kCheapPrepend ∧ moved.readableBytes = self.readableBytes ∧
      moved.buffer_.length = self.buffer_.length ∧ len ≤ moved.writableBytes := by
  have hreadable := hvalid.readableBytes_eq
  have hwritable := hvalid.writableBytes_eq
  have hroom : self.writableBytes + self.prependableBytes < 2 ^ 64 := by
    obtain ⟨_, hreader, hwriter, hsize⟩ := hvalid
    unfold maxSize at hsize
    unfold prependableBytes
    omega
  rw [addSize_eq hroom, addSize_eq hfits] at hmove
  obtain ⟨hstrict, hmoved⟩ := makeSpace_move alloc hvalid
    (fun _ => ⟨hroom, hfits, fun hgrow => absurd hgrow hmove⟩) hneed hmove
  have hcompact := compact_valid hvalid
  have hlength := length_compact self
  refine ⟨hstrict, fun hinside => Nat.not_le.mpr hstrict hinside.1, self.compact, ?_, hcompact, ?_, ?_, rfl,
    ?_, hlength, ?_⟩
  · rw [ensureWritableBytes, if_pos hneed, hmoved]
  · rw [hreadable]
    rfl
  · rw [hreadable]
    exact compact_contents hvalid
  · rw [hcompact.readableBytes_eq, hreadable]
    exact Nat.add_sub_cancel_left _ _
  · rw [hcompact.writableBytes_eq, hlength]
    have hindex : self.compact.writerIndex_ = kCheapPrepend + (self.writerIndex_ - self.readerIndex_) := rfl
    have hreader := hvalid.reader_le
    have hwriter := hvalid.writer_le
    unfold prependableBytes at hmove
    omega

/-- Four readable bytes that begin one position too late, and no room behind them. -/
def nearFront : Buffer where
  buffer_ := [0, 0, 0, 0, 0, 0, 0, 0, 9, 1, 2, 3, 4]
  readerIndex_ := 9
  writerIndex_ := 13

/-- The four bytes move by one position, over three of their own. -/
theorem compaction_moves_overlapping :
    ∃ moved, nearFront.ensureWritableBytes (fun _ => false) 1 = .ok moved ∧
      slice moved.buffer_ kCheapPrepend (kCheapPrepend + 4) = [1, 2, 3, 4] ∧ 1 ≤ moved.writableBytes := by
  have hvalid : nearFront.Valid := by decide
  obtain ⟨_, _, moved, hmoved, _, _, hslice, _, _, _, hroom⟩ :=
    compaction_moves (fun _ => false) hvalid (show nearFront.writableBytes < 1 by decide) (by decide) (by decide)
  exact ⟨moved, hmoved, hslice, hroom⟩

/-- Making room throws, or keeps the invariant and the readable bytes and leaves
at least the room asked for. No copy leaves the array. -/
theorem ensureWritableBytes_cases (alloc : Nat → Bool) {self : Buffer} (hvalid : self.Valid) {len : Nat}
    (hfits : self.SizesFit len) :
    (¬ self.Allocates alloc len ∧ self.ensureWritableBytes alloc len = .error .throws) ∨
    ∃ grown, self.ensureWritableBytes alloc len = .ok grown ∧ grown.Valid ∧
      grown.contents = self.contents ∧ len ≤ grown.writableBytes := by
  unfold ensureWritableBytes
  by_cases hneed : self.writableBytes < len
  · rw [if_pos hneed]
    have hwritable := hvalid.writableBytes_eq
    obtain ⟨hprepend, hreader, hwriter, hsize⟩ := id hvalid
    by_cases hgrow : self.writableBytes + self.prependableBytes < len + kCheapPrepend
    · rw [makeSpace_grow hvalid hfits hneed hgrow]
      cases hgrant : grants alloc (self.writerIndex_ + len) with
      | false =>
        refine .inl ⟨fun hallocates => ?_, rfl⟩
        rw [hallocates hneed hgrow] at hgrant
        cases hgrant
      | true =>
        have hmax : self.writerIndex_ + len ≤ maxSize := by
          simp only [grants, Bool.and_eq_true, decide_eq_true_eq] at hgrant
          exact hgrant.1
        have hlength : (self.buffer_ ++ List.replicate (self.writerIndex_ + len - self.buffer_.length)
            (0 : UInt8)).length = self.writerIndex_ + len := by
          rw [List.length_append, List.length_replicate]
          omega
        have hgrown : Valid { self with
            buffer_ := self.buffer_ ++ List.replicate (self.writerIndex_ + len - self.buffer_.length) 0 } := by
          refine ⟨hprepend, hreader, ?_, ?_⟩ <;> simp only [hlength] <;> omega
        refine .inr ⟨_, rfl, hgrown, slice_append_left _ _ hwriter, ?_⟩
        rw [hgrown.writableBytes_eq, hlength]
        change len ≤ self.writerIndex_ + len - self.writerIndex_
        omega
    · rw [(makeSpace_move alloc hvalid hfits hneed hgrow).2]
      refine .inr ⟨_, rfl, compact_valid hvalid, compact_contents hvalid, ?_⟩
      rw [(compact_valid hvalid).writableBytes_eq, length_compact]
      change len ≤ self.buffer_.length - (kCheapPrepend + (self.writerIndex_ - self.readerIndex_))
      unfold prependableBytes at hgrow
      omega
  · rw [if_neg hneed]
    exact .inr ⟨self, rfl, hvalid, rfl, by omega⟩

/-- Without the storage that it asks for, making room throws. -/
theorem ensureWritableBytes_throws {alloc : Nat → Bool} {self : Buffer} (hvalid : self.Valid) {len : Nat}
    (hfits : self.SizesFit len) (hrefused : ¬ self.Allocates alloc len) :
    self.ensureWritableBytes alloc len = .error .throws := by
  unfold Allocates at hrefused
  push Not at hrefused
  obtain ⟨hneed, hgrow, hgrant⟩ := hrefused
  rw [ensureWritableBytes, if_pos hneed, makeSpace_grow hvalid hfits hneed hgrow, if_neg hgrant]

theorem append_throws {alloc : Nat → Bool} {self : Buffer} (hvalid : self.Valid) {data : List UInt8}
    (hfits : self.SizesFit data.length) (hrefused : ¬ self.Allocates alloc data.length) :
    self.append alloc data = .error .throws := by
  rw [append, ensureWritableBytes_throws hvalid hfits hrefused]
  rfl

/-- Appending throws, or enqueues exactly the given bytes. -/
theorem append_cases (alloc : Nat → Bool) {self : Buffer} (hvalid : self.Valid) {data : List UInt8}
    (hfits : self.SizesFit data.length) :
    (¬ self.Allocates alloc data.length ∧ self.append alloc data = .error .throws) ∨
    ∃ longer, self.append alloc data = .ok longer ∧ longer.Valid ∧
      longer.contents = self.contents ++ data := by
  unfold append
  rcases ensureWritableBytes_cases alloc hvalid hfits with
    ⟨hfail, hthrows⟩ | ⟨grown, hgrown, hvalid', hsame, hroom⟩
  · rw [hthrows]
    exact .inl ⟨hfail, rfl⟩
  · rw [hvalid'.writableBytes_eq] at hroom
    obtain ⟨hprepend, hreader, hwriter, hsize⟩ := hvalid'
    have hinside : grown.writerIndex_ + data.length ≤ grown.buffer_.length := by omega
    have hindex : addSize grown.writerIndex_ data.length = grown.writerIndex_ + data.length := by
      unfold maxSize at hsize
      exact addSize_eq (by omega)
    have hcopy : copyInto grown.buffer_ grown.writerIndex_ data =
        .ok (overwrite grown.buffer_ grown.writerIndex_ data) := if_pos hinside
    rw [hgrown]
    simp only [Bind.bind, Except.bind, hcopy, hindex, Pure.pure, Except.pure]
    refine .inr ⟨_, rfl, ⟨hprepend, ?_, ?_, ?_⟩, ?_⟩
    · exact Nat.le_trans hreader (Nat.le_add_right _ _)
    · simpa only [length_overwrite _ _ _ hinside] using hinside
    · simpa only [length_overwrite _ _ _ hinside] using hsize
    · rw [← hsame]
      exact slice_overwrite grown.buffer_ data hreader hwriter

/-- The overflow that `readFd` appends has at most the size of its stack array. -/
theorem overflow_le {self : Buffer} {bytes : List UInt8} (hpossible : bytes.length ≤ self.readCapacity) :
    (bytes.drop self.writableBytes).length ≤ extrabufSize := by
  rw [List.length_drop]
  unfold readCapacity at hpossible
  split at hpossible <;> omega

/-- The buffer whose writable area has been filled with the front of the received bytes. -/
def filled (self : Buffer) (bytes : List UInt8) : Buffer :=
  { self with
    buffer_ := overwrite self.buffer_ self.writerIndex_ (bytes.take self.writableBytes)
    writerIndex_ := self.writerIndex_ + (bytes.take self.writableBytes).length }

theorem filled_spec {self : Buffer} (hvalid : self.Valid) (bytes : List UInt8) :
    (self.filled bytes).Valid ∧
      (self.filled bytes).contents = self.contents ++ bytes.take self.writableBytes ∧
      (self.filled bytes).buffer_.length = self.buffer_.length ∧
      copyInto self.buffer_ self.writerIndex_ (bytes.take self.writableBytes) =
        .ok (self.filled bytes).buffer_ := by
  have hwritable := hvalid.writableBytes_eq
  obtain ⟨hprepend, hreader, hwriter, hsize⟩ := hvalid
  have hinside : self.writerIndex_ + (bytes.take self.writableBytes).length ≤ self.buffer_.length := by
    rw [List.length_take]
    omega
  have hlength : (self.filled bytes).buffer_.length = self.buffer_.length :=
    length_overwrite _ _ _ hinside
  refine ⟨⟨hprepend, ?_, ?_, ?_⟩, slice_overwrite _ _ hreader hwriter, hlength, if_pos hinside⟩
  · exact Nat.le_trans hreader (Nat.le_add_right _ _)
  · rw [hlength]
    exact hinside
  · rw [hlength]
    exact hsize

/-- What fits the writable area is received in place. -/
theorem readFd_within (alloc : Nat → Bool) {self : Buffer} (hvalid : self.Valid) {bytes : List UInt8}
    (hroom : bytes.length ≤ self.writableBytes) :
    self.readFd alloc (.data bytes) = .ok (self.filled bytes, (bytes.length : Int), none) := by
  obtain ⟨_, _, _, hcopy⟩ := filled_spec hvalid bytes
  have htake : bytes.take self.writableBytes = bytes := List.take_of_length_le hroom
  have hindex : addSize self.writerIndex_ bytes.length = (self.filled bytes).writerIndex_ := by
    have hsize := hvalid.size_le
    have hwriter := hvalid.writer_le
    have hwritable := hvalid.writableBytes_eq
    unfold maxSize at hsize
    simp only [filled, htake]
    exact addSize_eq (by omega)
  simp only [readFd, hcopy, Bind.bind, Except.bind, if_pos hroom, hindex]
  rfl

/-- What does not fit fills the writable area, and the rest is appended. -/
theorem readFd_beyond (alloc : Nat → Bool) {self : Buffer} (hvalid : self.Valid) {bytes : List UInt8}
    (hover : self.writableBytes < bytes.length) :
    self.readFd alloc (.data bytes) = ((self.filled bytes).append alloc (bytes.drop self.writableBytes)).map
      fun longer => (longer, (bytes.length : Int), none) := by
  obtain ⟨_, _, hlength, hcopy⟩ := filled_spec hvalid bytes
  have hwriter : (self.filled bytes).buffer_.length = (self.filled bytes).writerIndex_ := by
    rw [hlength]
    have hle := hvalid.writer_le
    have hwritable := hvalid.writableBytes_eq
    simp only [filled, List.length_take]
    omega
  simp only [readFd, hcopy, Bind.bind, Except.bind, if_neg (Nat.not_le.mpr hover), hwriter]
  have hfilled : ({ self with
      buffer_ := (self.filled bytes).buffer_
      writerIndex_ := (self.filled bytes).writerIndex_ } : Buffer) = self.filled bytes := rfl
  rw [hfilled]
  cases (self.filled bytes).append alloc (bytes.drop self.writableBytes) <;> rfl

/-- A read reports the answer of `readv`, keeps the buffer on an error, and
otherwise enqueues exactly the received bytes, unless the overflow does not find
room. -/
theorem readFd_cases (alloc : Nat → Bool) {self : Buffer} (hvalid : self.Valid) {received : Received}
    (hpossible : received.Possible self.readCapacity) :
    (∃ errno, received = .error errno ∧ self.readFd alloc received = .ok (self, -1, some errno)) ∨
    ∃ bytes, received = .data bytes ∧ (self.readFd alloc received = .error .throws ∨
      ∃ longer, self.readFd alloc received = .ok (longer, bytes.length, none) ∧ longer.Valid ∧
        longer.contents = self.contents ++ bytes) := by
  cases received with
  | error errno => exact .inl ⟨errno, rfl, rfl⟩
  | data bytes =>
    refine .inr ⟨bytes, rfl, ?_⟩
    obtain ⟨hfilled, hcontents, _, _⟩ := filled_spec hvalid bytes
    by_cases hroom : bytes.length ≤ self.writableBytes
    · refine .inr ⟨self.filled bytes, readFd_within alloc hvalid hroom, hfilled, ?_⟩
      rw [hcontents, List.take_of_length_le hroom]
    · rw [readFd_beyond alloc hvalid (Nat.not_le.mp hroom)]
      have hover : (bytes.drop self.writableBytes).length ≤ maxSize :=
        Nat.le_trans (overflow_le hpossible) (by decide)
      rcases append_cases alloc hfilled (hfilled.sizesFit hover) with
        ⟨_, hthrows⟩ | ⟨longer, hlonger, hvalid', hcontents'⟩
      · rw [hthrows]
        exact .inl rfl
      · rw [hlonger]
        refine .inr ⟨longer, rfl, hvalid', ?_⟩
        rw [hcontents', hcontents, List.append_assoc, List.take_append_drop]

/-- The rest that `readFd` appends needs storage exactly when all of it would. -/
theorem allocates_filled (alloc : Nat → Bool) {self : Buffer} (hvalid : self.Valid) {bytes : List UInt8}
    (hover : self.writableBytes < bytes.length) :
    (self.filled bytes).Allocates alloc (bytes.drop self.writableBytes).length ↔
      self.Allocates alloc bytes.length := by
  obtain ⟨hfilled, _, hlength, _⟩ := filled_spec hvalid bytes
  have hwritable := hvalid.writableBytes_eq
  have hle := hvalid.writer_le
  have hwriter : (self.filled bytes).writerIndex_ = self.buffer_.length := by
    simp only [filled, List.length_take]
    omega
  have hnone : (self.filled bytes).writableBytes = 0 := by
    rw [hfilled.writableBytes_eq, hlength, hwriter, Nat.sub_self]
  have hreader : (self.filled bytes).prependableBytes = self.prependableBytes := rfl
  have hsize : self.buffer_.length + (bytes.length - self.writableBytes) = self.writerIndex_ + bytes.length := by
    omega
  have htest : 0 + self.prependableBytes < bytes.length - self.writableBytes + kCheapPrepend ↔
      self.writableBytes + self.prependableBytes < bytes.length + kCheapPrepend := by omega
  have hrest : 0 < bytes.length - self.writableBytes := by omega
  simp only [Allocates, hnone, hreader, hwriter, List.length_drop, hsize, htest, hrest, hover, true_implies]

/-- The scatter read equals a plain append. An error leaves the buffer and is reported.
What was received, at most 131071 bytes if the stack array was offered, is appended to
the content, where `append` finds the storage for it and where `readFd` does, and
otherwise both throw. -/
theorem readFd_equals_append (alloc : Nat → Bool) {self : Buffer} (hvalid : self.Valid) {received : Received}
    (hpossible : received.Possible self.readCapacity) :
    (∀ errno, received = .error errno → self.readFd alloc received = .ok (self, -1, some errno)) ∧
    ∀ bytes, received = .data bytes →
      (self.writableBytes < extrabufSize → bytes.length ≤ 131071) ∧
      (self.Allocates alloc bytes.length → ∃ longer appended,
        self.readFd alloc received = .ok (longer, (bytes.length : Int), none) ∧ longer.Valid ∧
        longer.contents = self.contents ++ bytes ∧
        self.append alloc bytes = .ok appended ∧ appended.contents = longer.contents) ∧
      (¬ self.Allocates alloc bytes.length →
        self.readFd alloc received = .error .throws ∧ self.append alloc bytes = .error .throws) := by
  refine ⟨fun errno herror => by rw [herror]; rfl, ?_⟩
  rintro bytes rfl
  have hlength : bytes.length ≤ self.readCapacity := hpossible
  have hbound : self.writableBytes < extrabufSize → bytes.length ≤ 131071 := by
    intro hoffered
    rw [readCapacity, if_pos hoffered] at hlength
    unfold extrabufSize at hoffered hlength
    omega
  have hsize : bytes.length ≤ maxSize := by
    have hle := hvalid.size_le
    have hwritable := hvalid.writableBytes_eq
    unfold readCapacity extrabufSize at hlength
    unfold maxSize at hle ⊢
    split at hlength <;> omega
  have happend := append_cases alloc hvalid (hvalid.sizesFit hsize)
  refine ⟨hbound, fun halloc => ?_, fun hrefused => ?_⟩
  · rcases happend with ⟨hrefused, _⟩ | ⟨appended, happended, _, hsame⟩
    · exact absurd halloc hrefused
    · obtain ⟨hfilled, hcontents, _, _⟩ := filled_spec hvalid bytes
      by_cases hroom : bytes.length ≤ self.writableBytes
      · have hall : (self.filled bytes).contents = self.contents ++ bytes := by
          rw [hcontents, List.take_of_length_le hroom]
        exact ⟨self.filled bytes, appended, readFd_within alloc hvalid hroom, hfilled, hall, happended,
          hsame.trans hall.symm⟩
      · have hover := Nat.not_le.mp hroom
        have hrest : (bytes.drop self.writableBytes).length ≤ maxSize :=
          Nat.le_trans (overflow_le hpossible) (by decide)
        rw [readFd_beyond alloc hvalid hover]
        rcases append_cases alloc hfilled (hfilled.sizesFit hrest) with
          ⟨hrefused, _⟩ | ⟨longer, hlonger, hvalid', hcontents'⟩
        · exact absurd ((allocates_filled alloc hvalid hover).mpr halloc) hrefused
        · have hall : longer.contents = self.contents ++ bytes := by
            rw [hcontents', hcontents, List.append_assoc, List.take_append_drop]
          exact ⟨longer, appended, by rw [hlonger]; rfl, hvalid', hall, happended, hsame.trans hall.symm⟩
  · have hover : self.writableBytes < bytes.length := by
      by_contra hnot
      exact hrefused fun hneed => absurd hneed hnot
    have hrest : (bytes.drop self.writableBytes).length ≤ maxSize :=
      Nat.le_trans (overflow_le hpossible) (by decide)
    have hfilled := (filled_spec hvalid bytes).1
    have hrefused' := mt (allocates_filled alloc hvalid hover).mp hrefused
    refine ⟨?_, append_throws hvalid (hvalid.sizesFit hsize) hrefused⟩
    rw [readFd_beyond alloc hvalid hover, append_throws hfilled (hfilled.sizesFit hrest) hrefused']
    rfl

/-- An empty buffer of which most is consumed, with room for one byte. -/
def oneFree : Buffer := { buffer_ := List.replicate 11 0, readerIndex_ := 10, writerIndex_ := 10 }

/-- Three bytes are received, of which the first is moved in front of the others. -/
theorem readFd_equals_append_moved :
    ∃ longer appended, oneFree.readFd (fun _ => true) (.data [1, 2, 3]) = .ok (longer, 3, none) ∧
      longer.Valid ∧ longer.contents = [1, 2, 3] ∧
      oneFree.append (fun _ => true) [1, 2, 3] = .ok appended ∧ appended.contents = longer.contents := by
  have hvalid : oneFree.Valid := by decide
  have hpossible : (Received.data [1, 2, 3]).Possible oneFree.readCapacity := by decide
  exact ((readFd_equals_append (fun _ => true) hvalid hpossible).2 _ rfl).2.1 (by decide)

end muduo.buffer.Buffer
