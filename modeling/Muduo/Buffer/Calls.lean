import Muduo.Buffer.Refinement
import Muduo.Library.Transition

open block_copy transition
open muduo.kernel

namespace muduo.buffer

/-- The calls on a buffer. That of `readFd` comes with the answer of `readv`. -/
inductive Call where
  | op (op : Op)
  | readFd (received : Received)
  deriving DecidableEq, Repr

namespace Call

def exec (alloc : Nat → Bool) (b : Buffer) : Call → Except Fault (Buffer × Option (List UInt8))
  | .op call => call.exec alloc b
  | .readFd received => (b.readFd alloc received).map fun r => (r.1, none)

/-- The buffer as a call leaves it that throws. Storage is asked for before anything is
assigned, but `readFd` has filled the writable area by then. -/
def thrown (b : Buffer) : Call → Buffer
  | .op _ => b
  | .readFd (.data bytes) => { b.filled bytes with writerIndex_ := (b.filled bytes).buffer_.length }
  | .readFd (.error _) => b

/-- The answer of `readv` fits the iovecs, and what is appended is somewhere in memory. -/
def Possible (b : Buffer) : Call → Prop
  | .op (.append data) => data.length ≤ maxSize
  | .op (.ensureWritableBytes _) => True
  | .op (.retrieve _) => True
  | .op .retrieveAll => True
  | .op (.retrieveAsString _) => True
  | .op .retrieveAllAsString => True
  | .readFd received => received.Possible b.readCapacity

instance (b : Buffer) : ∀ call : Call, Decidable (call.Possible b)
  | .op (.append data) => inferInstanceAs (Decidable (data.length ≤ maxSize))
  | .op (.ensureWritableBytes _) => inferInstanceAs (Decidable True)
  | .op (.retrieve _) => inferInstanceAs (Decidable True)
  | .op .retrieveAll => inferInstanceAs (Decidable True)
  | .op (.retrieveAsString _) => inferInstanceAs (Decidable True)
  | .op .retrieveAllAsString => inferInstanceAs (Decidable True)
  | .readFd received => inferInstanceAs (Decidable (received.Possible b.readCapacity))

/-- The size that the call of `ensureWritableBytes` asks the readable bytes to have
room in, if there is such a call. That of `readFd` is made on the filled buffer. -/
def demand (b : Buffer) : Call → Option Nat
  | .op (.append data) => some (b.readableBytes + data.length)
  | .op (.ensureWritableBytes len) => some (b.readableBytes + len)
  | .readFd (.data bytes) =>
    if bytes.length ≤ b.writableBytes then none
    else some ((thrown b (.readFd (.data bytes))).readableBytes + (bytes.drop b.writableBytes).length)
  | _ => none

end Call

/-- A buffer under any calls, of which some may throw. A copy that breaks its
requirements ends the run. -/
def calls (alloc : Nat → Bool) : Machine Buffer Call where
  step b call :=
    if call.Possible b then
      match call.exec alloc b with
      | .ok (b', _) => some b'
      | .error .throws => some (call.thrown b)
      | .error .undefined => none
    else none

/-- A buffer of twelve bytes, of which two have been written and one consumed. -/
def twelve : Buffer := { buffer_ := [0, 0, 0, 0, 0, 0, 0, 0, 1, 2, 0, 0], readerIndex_ := 9, writerIndex_ := 10 }

/-- Room is only asked for in amounts for which no sum exceeds 64 bits. -/
def NoWrap (b : Buffer) : Call → Prop
  | .op (.ensureWritableBytes len) => b.SizesFit len
  | _ => True

instance (b : Buffer) : ∀ call : Call, Decidable (NoWrap b call)
  | .op (.append _) => inferInstanceAs (Decidable True)
  | .op (.ensureWritableBytes len) => inferInstanceAs (Decidable (b.SizesFit len))
  | .op (.retrieve _) => inferInstanceAs (Decidable True)
  | .op .retrieveAll => inferInstanceAs (Decidable True)
  | .op (.retrieveAsString _) => inferInstanceAs (Decidable True)
  | .op .retrieveAllAsString => inferInstanceAs (Decidable True)
  | .readFd _ => inferInstanceAs (Decidable True)

namespace Buffer

/-- Making room leaves the size of the vector, or finds it too small for the readable
bytes and the room, and at most doubles what these need. -/
theorem ensureWritableBytes_size {alloc : Nat → Bool} {self grown : Buffer} (hvalid : self.Valid) {len : Nat}
    (hfits : self.SizesFit len) (hensure : self.ensureWritableBytes alloc len = .ok grown) :
    grown.buffer_.length = self.buffer_.length ∨
    (self.buffer_.length < self.readableBytes + len + kCheapPrepend ∧
      grown.buffer_.length ≤ 2 * (self.readableBytes + len) + kCheapPrepend) := by
  unfold ensureWritableBytes at hensure
  split at hensure
  · next hneed =>
    have hwritable := hvalid.writableBytes_eq
    have hreadable := hvalid.readableBytes_eq
    obtain ⟨hprepend, hreader, hwriter, hsize⟩ := id hvalid
    by_cases hgrow : self.writableBytes + self.prependableBytes < len + kCheapPrepend
    · rw [makeSpace_grow hvalid hfits hneed hgrow] at hensure
      split at hensure
      · cases hensure
        have hlength : (self.buffer_ ++ List.replicate (self.writerIndex_ + len - self.buffer_.length)
            (0 : UInt8)).length = self.writerIndex_ + len := by
          rw [List.length_append, List.length_replicate]
          omega
        right
        unfold prependableBytes at hgrow
        simp only [hlength]
        omega
      · cases hensure
    · rw [(makeSpace_move alloc hvalid hfits hneed hgrow).2] at hensure
      cases hensure
      exact .inl (length_compact self)
  · cases hensure
    exact .inl rfl

theorem append_size {alloc : Nat → Bool} {self longer : Buffer} (hvalid : self.Valid) {data : List UInt8}
    (hfits : self.SizesFit data.length) (happend : self.append alloc data = .ok longer) :
    longer.buffer_.length = self.buffer_.length ∨
    (self.buffer_.length < self.readableBytes + data.length + kCheapPrepend ∧
      longer.buffer_.length ≤ 2 * (self.readableBytes + data.length) + kCheapPrepend) := by
  rcases ensureWritableBytes_cases alloc hvalid hfits with
    ⟨_, hthrows⟩ | ⟨grown, hgrown, hvalid', _, hroom⟩
  · rw [append, hthrows] at happend
    cases happend
  · have hinside : grown.writerIndex_ + data.length ≤ grown.buffer_.length := by
      have hle := hvalid'.writer_le
      rw [hvalid'.writableBytes_eq] at hroom
      omega
    have hcopy : copyInto grown.buffer_ grown.writerIndex_ data =
        .ok (overwrite grown.buffer_ grown.writerIndex_ data) := if_pos hinside
    simp only [append, hgrown, Bind.bind, Except.bind, hcopy] at happend
    cases happend
    simp only [length_overwrite _ _ _ hinside]
    exact ensureWritableBytes_size hvalid hfits hgrown

theorem retrieve_size (self : Buffer) (len : Nat) :
    (self.retrieve len).buffer_.length = self.buffer_.length := by
  unfold retrieve
  split <;> rfl

/-- A string that is taken out was granted its storage and lies in the vector. -/
theorem retrieveAsString_ok {alloc : Nat → Bool} {self rest : Buffer} {len : Nat} {out : List UInt8}
    (htake : self.retrieveAsString alloc len = .ok (out, rest)) :
    grants alloc len = true ∧ self.readerIndex_ + len ≤ self.buffer_.length ∧
    out = slice self.buffer_ self.readerIndex_ (self.readerIndex_ + len) ∧ rest = self.retrieve len := by
  unfold retrieveAsString at htake
  split at htake
  · next hgrant =>
    split at htake
    · next hinside =>
      cases htake
      exact ⟨hgrant, hinside, rfl, rfl⟩
    · cases htake
  · cases htake

end Buffer

namespace Call

theorem map_eq_ok_iff {A B E : Type} {x : Except E A} {f : A → B} {y : B} :
    x.map f = .ok y ↔ ∃ a, x = .ok a ∧ f a = y := by
  cases x <;> simp [Except.map]

/-- If `readFd` throws, it has filled the writable area. -/
theorem thrown_readFd {b : Buffer} (hvalid : b.Valid) {bytes : List UInt8}
    (hover : b.writableBytes < bytes.length) : thrown b (.readFd (.data bytes)) = b.filled bytes := by
  have hlength := (Buffer.filled_spec hvalid bytes).2.2.1
  have hwritable := hvalid.writableBytes_eq
  have hle := hvalid.writer_le
  have hwriter : (b.filled bytes).buffer_.length = (b.filled bytes).writerIndex_ := by
    rw [hlength]
    simp only [Buffer.filled, List.length_take]
    omega
  simp only [thrown, hwriter]

/-- The size of the vector is left alone, or the demand of the call exceeds it and bounds
its growth. -/
def Sized (b t : Buffer) (call : Call) : Prop :=
  t.buffer_.length = b.buffer_.length ∨
  ∃ needed, demand b call = some needed ∧ b.buffer_.length < needed + kCheapPrepend ∧
    t.buffer_.length ≤ 2 * needed + kCheapPrepend

theorem sized_of_demand {b t : Buffer} {call : Call} {needed : Nat} (hdemand : demand b call = some needed)
    (hsize : t.buffer_.length = b.buffer_.length ∨
      (b.buffer_.length < needed + kCheapPrepend ∧ t.buffer_.length ≤ 2 * needed + kCheapPrepend)) :
    Sized b t call :=
  hsize.imp_right fun hgrown => ⟨needed, hdemand, hgrown⟩

/-- A call that returns keeps the index invariant and grows the vector on demand only. -/
theorem exec_sized {alloc : Nat → Bool} {b t : Buffer} {call : Call} {out : Option (List UInt8)}
    (hvalid : b.Valid) (hpossible : call.Possible b) (hnowrap : NoWrap b call)
    (hexec : call.exec alloc b = .ok (t, out)) : t.Valid ∧ Sized b t call := by
  cases call with
  | op call =>
    cases call with
    | append data =>
      have hfits := hvalid.sizesFit hpossible
      rcases Buffer.append_cases alloc hvalid hfits with ⟨_, hthrows⟩ | ⟨longer, happend, hvalid', _⟩
      · rw [exec, Op.exec, hthrows] at hexec
        cases hexec
      · rw [exec, Op.exec, happend] at hexec
        cases hexec
        exact ⟨hvalid', sized_of_demand rfl (Buffer.append_size hvalid hfits happend)⟩
    | ensureWritableBytes len =>
      rcases Buffer.ensureWritableBytes_cases alloc hvalid hnowrap with
        ⟨_, hthrows⟩ | ⟨grown, hensure, hvalid', _⟩
      · rw [exec, Op.exec, hthrows] at hexec
        cases hexec
      · rw [exec, Op.exec, hensure] at hexec
        cases hexec
        exact ⟨hvalid', sized_of_demand rfl (Buffer.ensureWritableBytes_size hvalid hnowrap hensure)⟩
    | retrieve len =>
      cases hexec
      exact ⟨(Buffer.retrieve_spec hvalid len).1, .inl (Buffer.retrieve_size b len)⟩
    | retrieveAll =>
      cases hexec
      exact ⟨Buffer.retrieveAll_valid hvalid, .inl rfl⟩
    | retrieveAsString len =>
      obtain ⟨_, htake, heq⟩ := map_eq_ok_iff.mp hexec
      cases heq
      rw [(Buffer.retrieveAsString_ok htake).2.2.2]
      exact ⟨(Buffer.retrieve_spec hvalid len).1, .inl (Buffer.retrieve_size b len)⟩
    | retrieveAllAsString =>
      obtain ⟨_, htake, heq⟩ := map_eq_ok_iff.mp hexec
      cases heq
      rw [(Buffer.retrieveAsString_ok htake).2.2.2]
      exact ⟨(Buffer.retrieve_spec hvalid _).1, .inl (Buffer.retrieve_size b _)⟩
  | readFd received =>
    obtain ⟨_, hread, heq⟩ := map_eq_ok_iff.mp hexec
    cases heq
    cases received with
    | error errno =>
      cases hread
      exact ⟨hvalid, .inl rfl⟩
    | data bytes =>
      obtain ⟨hfilled, _, hlength, _⟩ := Buffer.filled_spec hvalid bytes
      by_cases hroom : bytes.length ≤ b.writableBytes
      · rw [Buffer.readFd_within alloc hvalid hroom] at hread
        cases hread
        exact ⟨hfilled, .inl hlength⟩
      · have hover := Nat.not_le.mp hroom
        have hrest : (bytes.drop b.writableBytes).length ≤ maxSize :=
          Nat.le_trans (Buffer.overflow_le hpossible) (by decide)
        rw [Buffer.readFd_beyond alloc hvalid hover] at hread
        obtain ⟨longer, happend, heq⟩ := map_eq_ok_iff.mp hread
        cases heq
        have hfits := hfilled.sizesFit hrest
        have hsize := Buffer.append_size hfilled hfits happend
        rw [hlength] at hsize
        refine ⟨?_, sized_of_demand ?_ hsize⟩
        · rcases Buffer.append_cases alloc hfilled hfits with ⟨_, hthrows⟩ | ⟨other, hother, hvalid', _⟩
          · rw [hthrows] at happend
            cases happend
          · rw [hother] at happend
            cases happend
            exact hvalid'
        · simp only [demand, if_neg hroom, thrown_readFd hvalid hover]

/-- A call that throws leaves a valid buffer of the same size. -/
theorem thrown_sized {alloc : Nat → Bool} {b : Buffer} {call : Call} (hvalid : b.Valid)
    (hexec : call.exec alloc b = .error .throws) :
    (call.thrown b).Valid ∧ (call.thrown b).buffer_.length = b.buffer_.length := by
  cases call with
  | op call => exact ⟨hvalid, rfl⟩
  | readFd received =>
    cases received with
    | error errno => exact ⟨hvalid, rfl⟩
    | data bytes =>
      obtain ⟨hfilled, _, hlength, _⟩ := Buffer.filled_spec hvalid bytes
      by_cases hroom : bytes.length ≤ b.writableBytes
      · rw [exec, Buffer.readFd_within alloc hvalid hroom] at hexec
        cases hexec
      · rw [thrown_readFd hvalid (Nat.not_le.mp hroom)]
        exact ⟨hfilled, hlength⟩

end Call

/-- What one call does to the index invariant and the size of the vector. -/
theorem calls_step {alloc : Nat → Bool} {b t : Buffer} {call : Call} (hvalid : b.Valid)
    (hnowrap : NoWrap b call) (hstep : (calls alloc).step b call = some t) :
    t.Valid ∧ call.Sized b t := by
  simp only [calls] at hstep
  split at hstep
  · next hpossible =>
    split at hstep
    · next hexec =>
      cases hstep
      exact Call.exec_sized hvalid hpossible hnowrap hexec
    · next hexec =>
      cases hstep
      obtain ⟨hvalid', hlength⟩ := Call.thrown_sized hvalid hexec
      exact ⟨hvalid', .inl hlength⟩
    · cases hstep
  · cases hstep

/-- The largest demand of a sequence of calls. -/
def peak (alloc : Nat → Bool) (b : Buffer) : List Call → Nat
  | [] => 0
  | call :: rest => max ((call.demand b).getD 0) (match (calls alloc).step b call with
    | none => 0
    | some t => peak alloc t rest)

/-- A run keeps the index invariant, and beyond its first size the vector is at most twice
as large as the peak demand. -/
theorem calls_run {alloc : Nat → Bool} {b last : Buffer} {is : List Call} (hvalid : b.Valid)
    (hrun : (calls alloc).run b is = some last) (hnowrap : (calls alloc).Along NoWrap b is) :
    last.Valid ∧ last.buffer_.length ≤ max b.buffer_.length (2 * peak alloc b is + kCheapPrepend) := by
  induction is generalizing b with
  | nil =>
    cases hrun
    exact ⟨hvalid, Nat.le_max_left _ _⟩
  | cons call rest ih =>
    obtain ⟨t, hstep, hrun⟩ := Machine.step_of_run_cons hrun
    obtain ⟨hfits, halong⟩ := (Machine.Along.cons_iff hstep).mp hnowrap
    obtain ⟨hvalid', hsized⟩ := calls_step hvalid hfits hstep
    obtain ⟨hlast, hbound⟩ := ih hvalid' hrun halong
    have hpeak : peak alloc b (call :: rest) = max ((call.demand b).getD 0) (peak alloc t rest) := by
      simp only [peak, hstep]
    refine ⟨hlast, ?_⟩
    rw [hpeak]
    rcases hsized with hsame | ⟨needed, hdemand, _, hgrown⟩
    · omega
    · rw [hdemand, Option.getD_some]
      omega

/-- The memory of a buffer is bounded by its peak demand. After any run of calls from the
construction on, of which none wraps around, the vector is at most as large as at first or
twice as large as the peak demand and the prepended space; and a call changes its size
only if the demand of this call does not fit it. -/
theorem size_bounded_by_peak (alloc : Nat → Bool) {initialSize : Nat}
    (hsize : kCheapPrepend + initialSize < 2 ^ 64) {first last : Buffer}
    (hfirst : Buffer.construct alloc initialSize = .ok first) {is : List Call}
    (hrun : (calls alloc).run first is = some last) (hnowrap : (calls alloc).Along NoWrap first is) :
    last.buffer_.length ≤ max (kCheapPrepend + initialSize) (2 * peak alloc first is + kCheapPrepend) ∧
    ∀ call next, NoWrap last call → (calls alloc).step last call = some next →
      next.buffer_.length ≠ last.buffer_.length →
      ∃ needed, call.demand last = some needed ∧ last.buffer_.length < needed + kCheapPrepend := by
  obtain ⟨hvalid, _, hlength⟩ := Buffer.construct_ok hsize hfirst
  obtain ⟨hlast, hbound⟩ := calls_run hvalid hrun hnowrap
  rw [hlength] at hbound
  refine ⟨hbound, fun call next hfits hstep hchanged => ?_⟩
  rcases (calls_step hlast hfits hstep).2 with hsame | ⟨needed, hdemand, hsmall, _⟩
  · exact absurd hsame hchanged
  · exact ⟨needed, hdemand, hsmall⟩

/-- Bytes that are consumed in between do not add to the peak: the second append moves the
last byte to the front, and only the overflow of the read makes the vector grow. -/
def alternating : List Call :=
  [.op (.append [1, 2, 3]), .op (.retrieve 2), .op (.append [4, 5, 6]), .op (.retrieveAsString 3),
    .readFd (.data [7, 8, 9, 10])]

theorem size_bounded_by_peak_alternating :
    ∃ first last, Buffer.construct (fun _ => true) 4 = .ok first ∧
      (calls fun _ => true).run first alternating = some last ∧ last.buffer_.length = 16 ∧
      last.buffer_.length ≤ max (kCheapPrepend + 4) (2 * peak (fun _ => true) first alternating + kCheapPrepend) :=
  ⟨_, _, rfl, rfl, rfl, (size_bounded_by_peak (fun _ => true) (by decide) rfl rfl (by decide)).1⟩

end muduo.buffer
