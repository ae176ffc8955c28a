import Mathlib.Algebra.Group.Int.Defs
import Mathlib.Algebra.Group.Nat.Defs
import Mathlib.Data.List.Basic

namespace muduo.kernel

/-- The values of `errno` that the code compares against, and any other one. -/
inductive Errno where
  | EWOULDBLOCK
  | EINTR
  | EPIPE
  | ECONNRESET
  | other (code : Nat)
  deriving DecidableEq, Repr

/-- The answer of `write` or `sendfile`: the number of bytes taken, or -1 and an
`errno`. -/
inductive Written where
  | bytes (n : Nat)
  | error (errno : Errno)
  deriving DecidableEq, Repr

/-- The answers that a request for `len` bytes can get. -/
def Written.Possible (len : Nat) : Written → Prop
  | .bytes n => n ≤ len
  | .error _ => True

instance (len : Nat) : ∀ r : Written, Decidable (r.Possible len)
  | .bytes n => inferInstanceAs (Decidable (n ≤ len))
  | .error _ => inferInstanceAs (Decidable True)

/-- How many bytes the kernel has taken. -/
def Written.taken : Written → Nat
  | .bytes n => n
  | .error _ => 0

/-- The two answers that report a dead peer. The code tests `errno` behind `LOG_ERROR`, which
is taken to leave it alone. -/
def Written.isFatal : Written → Bool
  | .error .EPIPE => true
  | .error .ECONNRESET => true
  | _ => false

/-- The answer of `readv`: the bytes received, none at the end of the stream, or
-1 and an `errno`. -/
inductive Received where
  | data (bytes : List UInt8)
  | error (errno : Errno)
  deriving DecidableEq, Repr

/-- The answers that a request with room for `capacity` bytes can get. -/
def Received.Possible (capacity : Nat) : Received → Prop
  | .data bytes => bytes.length ≤ capacity
  | .error _ => True

instance (capacity : Nat) : ∀ r : Received, Decidable (r.Possible capacity)
  | .data bytes => inferInstanceAs (Decidable (bytes.length ≤ capacity))
  | .error _ => inferInstanceAs (Decidable True)

/-- `std::vector<char>::max_size()`, which also bounds the size of a
`std::string`: no object is larger than `PTRDIFF_MAX`. -/
def maxSize : Nat := 2 ^ 63 - 1

/-- The contents of a `std::string`. -/
structure Text where
  chars : List UInt8
  length_le : chars.length ≤ maxSize
  deriving DecidableEq

end muduo.kernel
