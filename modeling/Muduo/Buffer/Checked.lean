import Muduo.Buffer.Spec

open block_copy
open muduo.kernel

namespace muduo.buffer

/-- A buffer whose index invariant holds. -/
structure CheckedBuffer where
  raw : Buffer
  valid : raw.Valid
  deriving DecidableEq

namespace CheckedBuffer

/-- The readable bytes. -/
def contents (self : CheckedBuffer) : List UInt8 := self.raw.contents

def readableBytes (self : CheckedBuffer) : Nat := self.raw.readableBytes

/-- The buffer that an operation returns, if it returns one. -/
def checked : Except Fault Buffer → Option CheckedBuffer
  | .ok b => if h : b.Valid then some ⟨b, h⟩ else none
  | .error _ => none

/-- A buffer as the default constructor leaves it. -/
def fresh : CheckedBuffer where
  raw :=
    { buffer_ := List.replicate (kCheapPrepend + kInitialSize) 0
      readerIndex_ := kCheapPrepend
      writerIndex_ := kCheapPrepend }
  valid := by
    refine ⟨Nat.le_refl _, Nat.le_refl _, ?_, ?_⟩
    · rw [List.length_replicate]
      exact Nat.le_add_right _ _
    · rw [List.length_replicate]
      decide

def retrieve (self : CheckedBuffer) (len : Nat) : CheckedBuffer :=
  ⟨self.raw.retrieve len, (Buffer.retrieve_spec self.valid len).1⟩

def append (alloc : Nat → Bool) (self : CheckedBuffer) (data : List UInt8) : Option CheckedBuffer :=
  checked (self.raw.append alloc data)

def readFd (alloc : Nat → Bool) (self : CheckedBuffer) (received : Received) :
    Option (CheckedBuffer × Int × Option Errno) :=
  match self.raw.readFd alloc received with
  | .ok (b, n, saveErrno) => if h : b.Valid then some (⟨b, h⟩, n, saveErrno) else none
  | .error _ => none

/-- The default constructor throws, or gives the fresh buffer. -/
theorem construct_fresh (alloc : Nat → Bool) :
    Buffer.construct alloc kInitialSize =
      if alloc (kCheapPrepend + kInitialSize) then .ok fresh.raw else .error .throws := by
  have hsize : addSize kCheapPrepend kInitialSize = kCheapPrepend + kInitialSize := by decide
  have hmax : kCheapPrepend + kInitialSize ≤ maxSize := by decide
  have hgrow : ([] : List UInt8).length < kCheapPrepend + kInitialSize := by decide
  simp only [Buffer.construct, hsize, Buffer.resize_grow alloc hgrow, grants, hmax, decide_true, Bool.true_and]
  split <;> rfl

@[simp] theorem contents_fresh : fresh.contents = [] := slice_self _ _

theorem length_contents (self : CheckedBuffer) : self.contents.length = self.readableBytes :=
  self.valid.length_contents

theorem readableBytes_eq_zero_iff (self : CheckedBuffer) : self.readableBytes = 0 ↔ self.contents = [] :=
  self.valid.readableBytes_eq_zero_iff

theorem readableBytes_le (self : CheckedBuffer) : self.readableBytes ≤ maxSize := by
  have hreadable : self.readableBytes = self.raw.writerIndex_ - self.raw.readerIndex_ :=
    self.valid.readableBytes_eq
  obtain ⟨_, hreader, hwriter, hsize⟩ := self.valid
  omega

@[simp] theorem contents_retrieve (self : CheckedBuffer) (len : Nat) :
    (self.retrieve len).contents = self.contents.drop len :=
  (Buffer.retrieve_spec self.valid len).2

theorem checked_ok {b : Buffer} (hvalid : b.Valid) : checked (.ok b) = some ⟨b, hvalid⟩ :=
  dif_pos hvalid

/-- Appending data of a size that memory can hold throws, or enqueues exactly it. -/
theorem append_cases (alloc : Nat → Bool) (self : CheckedBuffer) {data : List UInt8}
    (hlen : data.length ≤ maxSize) :
    (self.raw.append alloc data = .error .throws ∧ self.append alloc data = none) ∨
    ∃ longer, self.append alloc data = some longer ∧ longer.contents = self.contents ++ data := by
  rcases Buffer.append_cases alloc self.valid (self.valid.sizesFit hlen) with
    ⟨_, hthrows⟩ | ⟨longer, happend, hvalid, hcontents⟩
  · refine .inl ⟨hthrows, ?_⟩
    rw [append, hthrows]
    rfl
  · refine .inr ⟨⟨longer, hvalid⟩, ?_, hcontents⟩
    rw [append, happend]
    exact checked_ok hvalid

theorem contents_append {alloc : Nat → Bool} {self longer : CheckedBuffer} {data : List UInt8}
    (hlen : data.length ≤ maxSize) (happend : self.append alloc data = some longer) :
    longer.contents = self.contents ++ data := by
  rcases append_cases alloc self hlen with ⟨_, hnone⟩ | ⟨other, hsome, hcontents⟩
  · rw [happend] at hnone
    cases hnone
  · rw [happend] at hsome
    cases hsome
    exact hcontents

/-- Reading keeps the buffer on an error, throws, or enqueues what was received. -/
theorem readFd_cases (alloc : Nat → Bool) (self : CheckedBuffer) {received : Received}
    (hpossible : received.Possible self.raw.readCapacity) :
    (∃ errno, received = .error errno ∧ self.readFd alloc received = some (self, -1, some errno)) ∨
    ∃ bytes, received = .data bytes ∧ (self.readFd alloc received = none ∨
      ∃ longer : CheckedBuffer, self.readFd alloc received = some (longer, (bytes.length : Int), none) ∧
        longer.contents = self.contents ++ bytes) := by
  unfold readFd
  rcases Buffer.readFd_cases alloc self.valid hpossible with
    ⟨errno, herror, hread⟩ | ⟨bytes, hdata, hthrows | ⟨longer, hread, hvalid, hcontents⟩⟩
  · rw [hread]
    exact .inl ⟨errno, herror, dif_pos self.valid⟩
  · rw [hthrows]
    exact .inr ⟨bytes, hdata, .inl rfl⟩
  · rw [hread]
    exact .inr ⟨bytes, hdata, .inr ⟨⟨longer, hvalid⟩, dif_pos hvalid, hcontents⟩⟩

end CheckedBuffer

end muduo.buffer
