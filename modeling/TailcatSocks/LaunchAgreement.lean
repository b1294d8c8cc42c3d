import TailcatSocks.AddressAgreement
import TailcatSocks.Python.Address
import TailcatSocks.Library.Utf8

/-!
# What the child is launched with

The Rust program reads `--upstream` as the Python program does, but for the
port: `int` takes more texts than `u16::from_str`.
-/

namespace TailcatSocks

open Library

section Launch

variable (ints : Python.Integers) (draws : Nat → UInt64) (binds : Bytes → Bool)
  (assigned : Bytes → UInt16)

end Launch

end TailcatSocks
