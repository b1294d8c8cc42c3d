import TailcatSocks.Library.Wire

/-!
# SOCKS5 messages

The messages as values: an address is one of three shapes, a name no longer
than its length byte can say, and a greeting offers no more methods than its
count byte can say, so that every value has an encoding.  Requests and replies
share one frame.  Nothing here is taken from an implementation; the readers and
writers of both front ends are compared with these values.
-/

namespace TailcatSocks.Socks

open Library

def version : UInt8 := 5

/-- The greeting of a client: the methods that it offers. -/
structure Greeting where
  methods : Bytes
  short : methods.length ≤ 255

namespace Greeting

def count (greeting : Greeting) : UInt8 := UInt8.ofNat greeting.methods.length

def encode (greeting : Greeting) : Bytes := version :: greeting.count :: greeting.methods

theorem toNat_count (greeting : Greeting) : greeting.count.toNat = greeting.methods.length := by
  have short := greeting.short
  rw [count, UInt8.toNat_ofNat', Nat.mod_eq_of_lt (by omega)]

/-- The greeting with a given count byte. -/
def ofBlock (count : UInt8) (methods : Block count.toNat) : Greeting :=
  ⟨methods.1, by have bound := count.toNat_lt; rw [methods.2]; omega⟩

theorem encode_ofBlock (count : UInt8) (methods : Block count.toNat) :
    (ofBlock count methods).encode = version :: count :: methods.1 := by
  simp only [encode, Greeting.count, ofBlock, methods.2, UInt8.ofNat_toNat]

/-- The reads that it takes to read a greeting. -/
def awaits (greeting : Greeting) : Nat := 1 + (1 + awaitsFor greeting.methods.length)

/-- The greeting offers to go on without authentication. -/
def OffersNone (greeting : Greeting) : Prop := 0 ∈ greeting.methods

instance (greeting : Greeting) : Decidable greeting.OffersNone :=
  inferInstanceAs (Decidable (0 ∈ greeting.methods))

end Greeting

inductive Address where
  | ipv4 (octets : Block 4)
  | domain (name : Bytes) (short : name.length ≤ 255)
  | ipv6 (octets : Block 16)
  deriving DecidableEq

namespace Address

def atyp : Address → UInt8
  | ipv4 _ => 1
  | domain _ _ => 3
  | ipv6 _ => 4

/-- What follows the type byte. -/
def body : Address → Bytes
  | ipv4 octets => octets.1
  | domain name _ => UInt8.ofNat name.length :: name
  | ipv6 octets => octets.1

/-- The reads that it takes to read the body: one, or for a name one for the
length and one for the bytes if there are any. -/
def awaits : Address → Nat
  | ipv4 _ => 1
  | domain name _ => 1 + awaitsFor name.length
  | ipv6 _ => 1

def ofBlock (count : UInt8) (name : Block count.toNat) : Address :=
  .domain name.1 (by have bound := count.toNat_lt; rw [name.2]; omega)

theorem body_ofBlock (count : UInt8) (name : Block count.toNat) :
    (ofBlock count name).body = count :: name.1 := by
  simp only [ofBlock, body, name.2, UInt8.ofNat_toNat]

theorem toNat_count {name : Bytes} (short : name.length ≤ 255) :
    (UInt8.ofNat name.length).toNat = name.length := by
  rw [UInt8.toNat_ofNat', Nat.mod_eq_of_lt (by omega)]

end Address

/-- A request or a reply: three bytes, the address, and the port. -/
structure Frame where
  version : UInt8
  code : UInt8
  reserved : UInt8
  address : Address
  port : Block 2
  deriving DecidableEq

namespace Frame

def head (frame : Frame) : Block 4 :=
  ⟨[frame.version, frame.code, frame.reserved, frame.address.atyp], rfl⟩

/-- The reads that it takes to read a frame. -/
def awaits (frame : Frame) : Nat := 1 + (frame.address.awaits + 1)

def encode (frame : Frame) : Bytes := frame.head.1 ++ frame.address.body ++ frame.port.1

end Frame

/-- The command of a request that asks for a connection. -/
def connect : UInt8 := 1

/-- The code of a reply that grants the request. -/
def succeeded : UInt8 := 0

/-- The reply of a server that accepts without authentication. -/
def methodNone : Bytes := [5, 0]

/-- The greeting of a client that offers only that. -/
def greeting : Bytes := [5, 1, 0]

end TailcatSocks.Socks
