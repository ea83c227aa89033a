import Mathlib.Data.UInt
import Capybara.Lib.HashMap

namespace Capybara

abbrev QDesc := Nat

/-- Points in time and durations, in a fixed unit of the clock. -/
abbrev Instant := Nat

abbrev Duration := Nat

structure MacAddress where
  o0 : UInt8
  o1 : UInt8
  o2 : UInt8
  o3 : UInt8
  o4 : UInt8
  o5 : UInt8
  deriving DecidableEq, Repr

structure Ipv4Addr where
  a : UInt8
  b : UInt8
  c : UInt8
  d : UInt8
  deriving DecidableEq, Repr

structure SocketAddrV4 where
  ip : Ipv4Addr
  port : UInt16
  deriving DecidableEq, Repr

/-- The two endpoints of a connection, local one first. -/
abbrev Endpoints := SocketAddrV4 × SocketAddrV4

inductive Errno
  | EADDRINUSE | EAGAIN | EALREADY | EBADF | EBADMSG | EBUSY | ECONNREFUSED | EDESTADDRREQ
  | EEXIST | EINPROGRESS | EINVAL | EIO | EISCONN | ENOENT | ENOTCONN | ENOTSUP | EOPNOTSUPP | ETIMEDOUT | ETCPMIG
  deriving DecidableEq, Repr

structure Fail where
  errno : Errno
  cause : String
  deriving DecidableEq, Repr

open Errno in
def ioFail (cause : String) : Fail := ⟨ EIO, cause⟩

/-- `if p { return Err(fail) }`. -/
def refuse (p : Prop) [Decidable p] (fail : Fail) : Except Fail Unit := if p then .error fail else .ok ()

theorem refuse_of_not {p : Prop} [Decidable p] (h : ¬p) (fail : Fail) : refuse p fail = .ok () := if_neg h

/-- The bytes a data buffer shows. Functions that can panic return an `Option`; `none` is the panic,
with overflow checks and debug assertions on as in the development profile. -/
abbrev Buffer := List UInt8

/-- Removes bytes from the front of a buffer. -/
def adjust (buf : Buffer) (nbytes : Nat) : Option Buffer :=
  if buf.length < nbytes then none else some (buf.drop nbytes)

/-- Removes bytes from the end of a buffer. -/
def trim (buf : Buffer) (nbytes : Nat) : Option Buffer :=
  if buf.length < nbytes then none else some (buf.take (buf.length - nbytes))

theorem adjust_of_le {buf : Buffer} {n : Nat} (h : n ≤ buf.length) : adjust buf n = some (buf.drop n) := by
  simp [adjust, Nat.not_lt.mpr h]

theorem trim_of_le {buf : Buffer} {n : Nat} (h : n ≤ buf.length) :
    trim buf n = some (buf.take (buf.length - n)) := by
  simp [trim, Nat.not_lt.mpr h]

/-- Addition on `u32`, which panics on overflow. -/
def addU32 (a b : Nat) : Option Nat := if a + b < 2 ^ 32 then some (a + b) else none

/-- Subtraction on an unsigned type, which panics on underflow. -/
def checkedSub (a b : Nat) : Option Nat := if b ≤ a then some (a - b) else none

theorem addU32_of_lt {a b : Nat} (h : a + b < 2 ^ 32) : addU32 a b = some (a + b) := if_pos h

theorem checkedSub_of_le {a b : Nat} (h : b ≤ a) : checkedSub a b = some (a - b) := if_pos h

/-- `debug_assert!`. -/
def debugAssert (p : Bool) : Option Unit := if p then some () else none

end Capybara
