import Muduo.Buffer.Spec

open muduo.kernel

namespace muduo.buffer

/-- The calls on a buffer that move bytes in or out or ask for room. -/
inductive Op where
  | append (data : List UInt8)
  | ensureWritableBytes (len : Nat)
  | retrieve (len : Nat)
  | retrieveAll
  | retrieveAsString (len : Nat)
  | retrieveAllAsString
  deriving DecidableEq, Repr

namespace Op

/-- One call on the buffer, with the string that it returns, if any. -/
def exec (alloc : Nat → Bool) (b : Buffer) : Op → Except Fault (Buffer × Option (List UInt8))
  | .append data => (b.append alloc data).map fun b' => (b', none)
  | .ensureWritableBytes len => (b.ensureWritableBytes alloc len).map fun b' => (b', none)
  | .retrieve len => .ok (b.retrieve len, none)
  | .retrieveAll => .ok (b.retrieveAll, none)
  | .retrieveAsString len => (b.retrieveAsString alloc len).map fun r => (r.2, some r.1)
  | .retrieveAllAsString => (b.retrieveAllAsString alloc).map fun r => (r.2, some r.1)

/-- What the calls mean on a first-in first-out queue of bytes. -/
def onQueue (queue : List UInt8) : Op → List UInt8 × Option (List UInt8)
  | .append data => (queue ++ data, none)
  | .ensureWritableBytes _ => (queue, none)
  | .retrieve len => (queue.drop len, none)
  | .retrieveAll => ([], none)
  | .retrieveAsString len => (queue.drop len, some (queue.take len))
  | .retrieveAllAsString => ([], some queue)

/-- The call computes no size beyond 64 bits, the storage that it asks for is
available, and it takes out no more than is readable as a string. -/
def Fits (alloc : Nat → Bool) (b : Buffer) : Op → Prop
  | .append data => b.SizesFit data.length ∧ b.Allocates alloc data.length
  | .ensureWritableBytes len => b.SizesFit len ∧ b.Allocates alloc len
  | .retrieve _ => True
  | .retrieveAll => True
  | .retrieveAsString len => len ≤ b.readableBytes ∧ alloc len = true
  | .retrieveAllAsString => alloc b.readableBytes = true

instance (alloc : Nat → Bool) (b : Buffer) : ∀ op : Op, Decidable (op.Fits alloc b)
  | .append data => inferInstanceAs (Decidable (b.SizesFit data.length ∧ b.Allocates alloc data.length))
  | .ensureWritableBytes len => inferInstanceAs (Decidable (b.SizesFit len ∧ b.Allocates alloc len))
  | .retrieve _ => inferInstanceAs (Decidable True)
  | .retrieveAll => inferInstanceAs (Decidable True)
  | .retrieveAsString len => inferInstanceAs (Decidable (len ≤ b.readableBytes ∧ alloc len = true))
  | .retrieveAllAsString => inferInstanceAs (Decidable (alloc b.readableBytes = true))

/-- Every call returns, keeps the index invariant and acts on the readable bytes
as it does on the queue; asking for room provides it. -/
theorem exec_refines {alloc : Nat → Bool} {b : Buffer} (hvalid : b.Valid) (op : Op)
    (hfits : op.Fits alloc b) :
    ∃ b' out, op.exec alloc b = .ok (b', out) ∧ b'.Valid ∧
      op.onQueue b.contents = (b'.contents, out) ∧
      ∀ len, op = .ensureWritableBytes len → len ≤ b'.writableBytes := by
  cases op with
  | append data =>
    obtain ⟨hsizes, halloc⟩ := hfits
    rcases Buffer.append_cases alloc hvalid hsizes with ⟨hfail, _⟩ | ⟨longer, happend, hvalid', hcontents⟩
    · exact absurd halloc hfail
    · refine ⟨longer, none, by rw [exec, happend]; rfl, hvalid', ?_, by simp⟩
      rw [onQueue, hcontents]
  | ensureWritableBytes len =>
    obtain ⟨hsizes, halloc⟩ := hfits
    rcases Buffer.ensureWritableBytes_cases alloc hvalid hsizes with
      ⟨hfail, _⟩ | ⟨grown, hensure, hvalid', hcontents, hroom⟩
    · exact absurd halloc hfail
    · refine ⟨grown, none, by rw [exec, hensure]; rfl, hvalid', ?_, ?_⟩
      · rw [onQueue, hcontents]
      · intro asked heq
        cases heq
        exact hroom
  | retrieve len =>
    obtain ⟨hvalid', hcontents⟩ := Buffer.retrieve_spec hvalid len
    exact ⟨_, none, rfl, hvalid', by rw [onQueue, hcontents], by simp⟩
  | retrieveAll =>
    exact ⟨_, none, rfl, Buffer.retrieveAll_valid hvalid,
      by rw [onQueue, Buffer.retrieveAll_contents], by simp⟩
  | retrieveAsString len =>
    obtain ⟨hlen, halloc⟩ := hfits
    obtain ⟨hvalid', hcontents⟩ := Buffer.retrieve_spec hvalid len
    refine ⟨_, _, by rw [exec, Buffer.retrieveAsString_eq hvalid hlen halloc]; rfl, hvalid', ?_, by simp⟩
    rw [onQueue, hcontents]
  | retrieveAllAsString =>
    obtain ⟨hvalid', hcontents⟩ := Buffer.retrieve_spec hvalid b.readableBytes
    have hall : b.contents.length ≤ b.readableBytes := Nat.le_of_eq hvalid.length_contents
    refine ⟨_, _, by
      rw [exec, Buffer.retrieveAllAsString, Buffer.retrieveAsString_eq hvalid (Nat.le_refl _) hfits]
      rfl, hvalid', ?_, by simp⟩
    rw [onQueue, hcontents, List.drop_of_length_le hall, List.take_of_length_le hall]

/-- A sequence of calls, with the strings returned in order. -/
def execAll (alloc : Nat → Bool) (b : Buffer) :
    List Op → Except Fault (Buffer × List (Option (List UInt8)))
  | [] => .ok (b, [])
  | op :: ops => do
    let (b', out) ← op.exec alloc b
    let (last, outs) ← execAll alloc b' ops
    pure (last, out :: outs)

def onQueueAll (queue : List UInt8) : List Op → List UInt8 × List (Option (List UInt8))
  | [] => (queue, [])
  | op :: ops =>
    let (rest, out) := op.onQueue queue
    let (last, outs) := onQueueAll rest ops
    (last, out :: outs)

/-- Every call of the sequence fits the buffer that it is made on. -/
def AllFit (alloc : Nat → Bool) (b : Buffer) : List Op → Prop
  | [] => True
  | op :: ops => op.Fits alloc b ∧ match op.exec alloc b with
    | .error _ => True
    | .ok (b', _) => AllFit alloc b' ops

instance decidableAllFit (alloc : Nat → Bool) : ∀ (b : Buffer) (ops : List Op), Decidable (AllFit alloc b ops)
  | _, [] => isTrue trivial
  | b, op :: ops =>
    match hexec : op.exec alloc b with
    | .error _ => decidable_of_iff (op.Fits alloc b) (by simp [AllFit, hexec])
    | .ok (b', _) =>
      have := decidableAllFit alloc b' ops
      decidable_of_iff (op.Fits alloc b ∧ AllFit alloc b' ops) (by simp [AllFit, hexec])

theorem execAll_refines {alloc : Nat → Bool} (ops : List Op) {b : Buffer} (hvalid : b.Valid)
    (hfits : AllFit alloc b ops) :
    ∃ last outs, execAll alloc b ops = .ok (last, outs) ∧ last.Valid ∧
      onQueueAll b.contents ops = (last.contents, outs) ∧
      ∀ len, ops.getLast? = some (.ensureWritableBytes len) → len ≤ last.writableBytes := by
  induction ops generalizing b with
  | nil => exact ⟨b, [], rfl, hvalid, rfl, by simp⟩
  | cons op ops ih =>
    obtain ⟨hfit, hrest⟩ := hfits
    obtain ⟨b', out, hexec, hvalid', hqueue, hroom⟩ := exec_refines hvalid op hfit
    simp only [hexec] at hrest
    obtain ⟨last, outs, hall, hvalidLast, hqueueAll, hroomLast⟩ := ih hvalid' hrest
    refine ⟨last, out :: outs, ?_, hvalidLast, ?_, ?_⟩
    · simp only [execAll, hexec, Bind.bind, Except.bind, hall, Pure.pure, Except.pure]
    · simp only [onQueueAll, hqueue, hqueueAll]
    · intro len hlast
      cases ops with
      | nil =>
        cases hall
        exact hroom len (by simpa using hlast)
      | cons next ops => exact hroomLast len (by simpa using hlast)

end Op

namespace Buffer

/-- A buffer's life so far: its construction and a sequence of calls. -/
def life (alloc : Nat → Bool) (initialSize : Nat) (ops : List Op) :
    Except Fault (Buffer × List (Option (List UInt8))) := do
  let b ← construct alloc initialSize
  Op.execAll alloc b ops

/-- No size computation of the life exceeds 64 bits and no allocation fails. -/
def LifeFits (alloc : Nat → Bool) (initialSize : Nat) (ops : List Op) : Prop :=
  kCheapPrepend + initialSize < 2 ^ 64 ∧ grants alloc (kCheapPrepend + initialSize) = true ∧
  match construct alloc initialSize with
  | .error _ => True
  | .ok b => Op.AllFit alloc b ops

instance (alloc : Nat → Bool) (initialSize : Nat) (ops : List Op) :
    Decidable (LifeFits alloc initialSize ops) :=
  match hfirst : construct alloc initialSize with
  | .error _ => decidable_of_iff (kCheapPrepend + initialSize < 2 ^ 64 ∧
      grants alloc (kCheapPrepend + initialSize) = true) (by simp [LifeFits, hfirst])
  | .ok b => decidable_of_iff (kCheapPrepend + initialSize < 2 ^ 64 ∧
      grants alloc (kCheapPrepend + initialSize) = true ∧ Op.AllFit alloc b ops)
      (by simp [LifeFits, hfirst])

/-- A buffer is a first-in first-out queue of bytes. Whatever calls are made on
it, it returns from all of them with its index invariant, its readable bytes and
every returned string are those of the queue, and room asked for last is there.
A copy outside the array would have ended the calls in `Fault.undefined`. -/
theorem life_refines_queue (alloc : Nat → Bool) (initialSize : Nat) (ops : List Op)
    (hfits : LifeFits alloc initialSize ops) :
    ∃ b outs, life alloc initialSize ops = .ok (b, outs) ∧
      (kCheapPrepend ≤ b.readerIndex_ ∧ b.readerIndex_ ≤ b.writerIndex_ ∧
        b.writerIndex_ ≤ b.buffer_.length) ∧
      Op.onQueueAll [] ops = (b.contents, outs) ∧
      ∀ len, ops.getLast? = some (.ensureWritableBytes len) → len ≤ b.writableBytes := by
  obtain ⟨hsize, hgrant, hall⟩ := hfits
  rcases construct_cases alloc initialSize hsize with ⟨hrefused, _⟩ | ⟨first, hfirst, hvalid, hempty, _⟩
  · rw [hgrant] at hrefused
    cases hrefused
  · simp only [hfirst] at hall
    obtain ⟨last, outs, hexec, hvalid', hqueue, hroom⟩ := Op.execAll_refines ops hvalid hall
    rw [hempty] at hqueue
    refine ⟨last, outs, ?_, ⟨hvalid'.prepend_le, hvalid'.reader_le, hvalid'.writer_le⟩, hqueue, hroom⟩
    simp only [life, hfirst, Bind.bind, Except.bind, hexec]

/-- A life that consumes, moves its bytes to the front and grows. -/
theorem life_refines_queue_small :
    ∃ b outs, life (fun _ => true) 4 [.append [1, 2, 3], .retrieveAsString 2, .ensureWritableBytes 3,
        .append [4, 5, 6, 7], .retrieve 9, .ensureWritableBytes 20] = .ok (b, outs) ∧
      (kCheapPrepend ≤ b.readerIndex_ ∧ b.readerIndex_ ≤ b.writerIndex_ ∧
        b.writerIndex_ ≤ b.buffer_.length) ∧
      Op.onQueueAll [] [.append [1, 2, 3], .retrieveAsString 2, .ensureWritableBytes 3,
        .append [4, 5, 6, 7], .retrieve 9, .ensureWritableBytes 20] = (b.contents, outs) ∧
      ∀ len, [Op.append [1, 2, 3], .retrieveAsString 2, .ensureWritableBytes 3,
        .append [4, 5, 6, 7], .retrieve 9, .ensureWritableBytes 20].getLast? =
          some (.ensureWritableBytes len) → len ≤ b.writableBytes :=
  life_refines_queue (fun _ => true) 4 _ (by decide)

end Buffer

end muduo.buffer
