import Muduo.Kernel
import Muduo.Library.BlockCopy

open block_copy
open muduo.kernel

namespace muduo.buffer

/-- Addition of two `size_t` values. -/
def addSize (a b : Nat) : Nat := (a + b) % 2 ^ 64

/-- Subtraction of two `size_t` values, which wraps around below zero. -/
def subSize (a b : Nat) : Nat := if b ≤ a then a - b else a + 2 ^ 64 - b

theorem addSize_eq {a b : Nat} (hfits : a + b < 2 ^ 64) : addSize a b = a + b :=
  Nat.mod_eq_of_lt hfits

theorem subSize_eq {a b : Nat} (hle : b ≤ a) : subSize a b = a - b := if_pos hle

/-- How an operation can end other than by returning: an exception leaves it
(`std::length_error` or `std::bad_alloc`), or a copy breaks its requirements (a
range outside the array, a destination that begins inside the source range). -/
inductive Fault where
  | throws
  | undefined
  deriving DecidableEq, Repr

/-- Whether `std::vector<char>` and `std::string` can be given `size` bytes of
storage; `alloc` says what the allocator can provide. -/
def grants (alloc : Nat → Bool) (size : Nat) : Bool := decide (size ≤ maxSize) && alloc size

/-- `std::vector<char>::resize`. It throws before it changes anything, and only when it
has to grow. -/
def resize (alloc : Nat → Bool) (cells : List UInt8) (size : Nat) : Except Fault (List UInt8) :=
  if size ≤ cells.length ∨ grants alloc size = true then
    .ok (cells.take size ++ List.replicate (size - cells.length) 0)
  else
    .error .throws

/-- `std::copy` of the range `[first, last)` of an array to position `dst` of the same array. -/
def copyWithin (cells : List UInt8) (first last dst : Nat) : Except Fault (List UInt8) :=
  if first ≤ last ∧ last ≤ cells.length ∧ dst + (last - first) ≤ cells.length ∧
      ¬ (first ≤ dst ∧ dst < last) then
    .ok (copyForward cells first dst (last - first))
  else
    .error .undefined

/-- `std::copy` of separate data to position `pos` of an array. -/
def copyInto (cells : List UInt8) (pos : Nat) (data : List UInt8) : Except Fault (List UInt8) :=
  if pos + data.length ≤ cells.length then
    .ok (overwrite cells pos data)
  else
    .error .undefined

def kCheapPrepend : Nat := 8

def kInitialSize : Nat := 1024

/-- The size of the stack array that `readFd` reads into behind the buffer. -/
def extrabufSize : Nat := 65536

structure Buffer where
  buffer_ : List UInt8
  readerIndex_ : Nat
  writerIndex_ : Nat
  deriving DecidableEq, Repr

namespace Buffer

def construct (alloc : Nat → Bool) (initialSize : Nat) : Except Fault Buffer := do
  let buffer_ ← resize alloc [] (addSize kCheapPrepend initialSize)
  pure { buffer_, readerIndex_ := kCheapPrepend, writerIndex_ := kCheapPrepend }

def readableBytes (self : Buffer) : Nat := subSize self.writerIndex_ self.readerIndex_

def writableBytes (self : Buffer) : Nat := subSize self.buffer_.length self.writerIndex_

def prependableBytes (self : Buffer) : Nat := self.readerIndex_

def retrieveAll (self : Buffer) : Buffer :=
  { self with readerIndex_ := kCheapPrepend, writerIndex_ := kCheapPrepend }

def retrieve (self : Buffer) (len : Nat) : Buffer :=
  if len < self.readableBytes then
    { self with readerIndex_ := addSize self.readerIndex_ len }
  else
    self.retrieveAll

/-- `std::string(peek(), len)` followed by `retrieve(len)`. The string takes `len`
bytes from the read position on, whatever the number of readable bytes. -/
def retrieveAsString (alloc : Nat → Bool) (self : Buffer) (len : Nat) :
    Except Fault (List UInt8 × Buffer) :=
  if grants alloc len then
    if self.readerIndex_ + len ≤ self.buffer_.length then
      .ok (slice self.buffer_ self.readerIndex_ (self.readerIndex_ + len), self.retrieve len)
    else
      .error .undefined
  else
    .error .throws

def retrieveAllAsString (alloc : Nat → Bool) (self : Buffer) : Except Fault (List UInt8 × Buffer) :=
  self.retrieveAsString alloc self.readableBytes

def makeSpace (alloc : Nat → Bool) (self : Buffer) (len : Nat) : Except Fault Buffer :=
  if addSize self.writableBytes self.prependableBytes < addSize len kCheapPrepend then do
    let buffer_ ← resize alloc self.buffer_ (addSize self.writerIndex_ len)
    pure { self with buffer_ }
  else do
    let readable := self.readableBytes
    let buffer_ ← copyWithin self.buffer_ self.readerIndex_ self.writerIndex_ kCheapPrepend
    pure { buffer_, readerIndex_ := kCheapPrepend, writerIndex_ := addSize kCheapPrepend readable }

def ensureWritableBytes (alloc : Nat → Bool) (self : Buffer) (len : Nat) : Except Fault Buffer :=
  if self.writableBytes < len then self.makeSpace alloc len else .ok self

def append (alloc : Nat → Bool) (self : Buffer) (data : List UInt8) : Except Fault Buffer := do
  let self ← self.ensureWritableBytes alloc data.length
  let buffer_ ← copyInto self.buffer_ self.writerIndex_ data
  pure { self with buffer_, writerIndex_ := addSize self.writerIndex_ data.length }

/-- The number of bytes that the iovecs of `readFd` have room for. -/
def readCapacity (self : Buffer) : Nat :=
  if self.writableBytes < extrabufSize then self.writableBytes + extrabufSize else self.writableBytes

/-- `readFd`, given what `readv` answers: the buffer, the returned `n`, and
`*saveErrno` when it is set. -/
def readFd (alloc : Nat → Bool) (self : Buffer) (received : Received) :
    Except Fault (Buffer × Int × Option Errno) :=
  match received with
  | .error errno => .ok (self, -1, some errno)
  | .data bytes => do
    let writable := self.writableBytes
    let filled ← copyInto self.buffer_ self.writerIndex_ (bytes.take writable)
    if bytes.length ≤ writable then
      pure ({ self with buffer_ := filled, writerIndex_ := addSize self.writerIndex_ bytes.length },
        bytes.length, none)
    else do
      let self ← { self with buffer_ := filled, writerIndex_ := filled.length : Buffer }.append alloc
        (bytes.drop writable)
      pure (self, bytes.length, none)

end Buffer

end muduo.buffer
