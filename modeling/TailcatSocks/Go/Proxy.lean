import TailcatSocks.Socks.Read
import TailcatSocks.Socks.World
import TailcatSocks.Go.DnsMap

/-!
# The Go front end up to the relay

`serveConn` with the functions it calls.  Addresses are those of package `net`,
where an IPv4-mapped IPv6 address counts as its IPv4 address.
-/

namespace TailcatSocks.Go

open Library Socks

/-! ## Addresses of package `net` -/

/-- `IP.To4`, on sixteen bytes. -/
def to4 (ip : Block 16) : Option (Block 4) := (Ipv6Addr.toIpv4Mapped ⟨ip⟩).map Ipv4Addr.octets

/-- An IPv4 address in sixteen bytes. -/
def v4InV6 (ip4 : Ipv4Addr) : Block 16 :=
  ⟨Ipv6Addr.mappedHead ++ ip4.octets.1, by rw [List.length_append, ip4.octets.2]; rfl⟩

/-- `net.ParseIP`. -/
def parseIP (s : Bytes) : Option (Block 16) :=
  match parseIpv4 s with
  | some ip4 => some (v4InV6 ip4)
  | none => (parseIpv6 s).map Ipv6Addr.octets

/-- `IP.String`, on four bytes. -/
def ipv4String (ip : Block 4) : Bytes := Ipv4Addr.text ⟨ip⟩

/-- `IP.String`, on sixteen bytes. -/
def ipv6String (ip : Block 16) : Bytes :=
  match to4 ip with
  | some ip4 => ipv4String ip4
  | none => Ipv6Addr.text ⟨ip⟩

/-! ## The upstream -/

inductive SocksError where
  | io (source : Fault)
  | unsupportedAtyp (atyp : UInt8)
  | nameTooLong (host : Bytes)
  | greetingRefused
  | upstreamRefused (reply : UInt8)
  deriving DecidableEq, Repr

def socksOKReply : Bytes := [0x05, 0x00, 0x00, 0x01, 0, 0, 0, 0, 0, 0]

def socksFailReply : Bytes := [0x05, 0x01, 0x00, 0x01, 0, 0, 0, 0, 0, 0]

/-- `io.ReadFull`. -/
def readFull (count : Nat) : EStateM SocksError Conn (Block count) := readExact .io count

/-- `conn.Write`. -/
def write (bytes : Bytes) : EStateM SocksError Conn Unit := writeAll .io bytes

def readATYPAddr (atyp : UInt8) : EStateM SocksError Conn Bytes :=
  match atyp with
  | 0x01 => do
      let b ← readFull 4
      pure (ipv4String b)
  | 0x03 => do
      let l ← readFull 1
      let b ← readFull (l.get 0).toNat
      pure b.1
  | 0x04 => do
      let b ← readFull 16
      pure (ipv6String b)
  | other => throw (.unsupportedAtyp other)

/-- `byte(port>>8), byte(port)`. -/
def portBytes (port : UInt16) : Bytes := [(port >>> 8).toUInt8, port.toUInt8]

def socksConnectRequest (host : Bytes) (port : UInt16) : Except SocksError Bytes := do
  let addr ←
    match parseIP host with
    | some ip =>
        match to4 ip with
        | some ip4 => pure (0x01 :: ip4.1)
        | none => pure (0x04 :: ip.1)
    | none =>
        if 255 < host.length then throw (.nameTooLong host)
        else pure (0x03 :: UInt8.ofNat host.length :: host)
  pure ([0x05, 0x01, 0x00] ++ addr ++ portBytes port)

def socksClientConnect (req : Bytes) : EStateM SocksError Conn Unit := do
  write [0x05, 0x01, 0x00]
  let greet ← readFull 2
  if greet.get 0 ≠ 0x05 ∨ greet.get 1 ≠ 0x00 then throw .greetingRefused
  else
    write req
    let rep ← readFull 4
    if rep.get 0 ≠ 0x05 ∨ rep.get 1 ≠ 0x00 then throw (.upstreamRefused (rep.get 1))
    else
      let _ ← readATYPAddr (rep.get 3)
      let _ ← readFull 2
      pure ()

/-- The request is encoded before anything is dialled. -/
def dialUpstream (host : Bytes) (port : UInt16) : EStateM SocksError World Unit :=
  match socksConnectRequest host port with
  | .error e => throw e
  | .ok req => do
      dial .io
      onUpstream (socksClientConnect req)

/-! ## One connection -/

/-- `_, _ = client.Write(..)`. -/
def bestEffort {σ : Type} (program : EStateM SocksError σ Unit) : EStateM SocksError σ Unit :=
  fun s => .ok () (after program s)

def socksFail : EStateM SocksError World Unit := bestEffort (onClient (write socksFailReply))

/-- The greeting and its answer: whether to go on. -/
def greet : EStateM SocksError Conn Bool := do
  let v ← readFull 1
  if v.get 0 ≠ 0x05 then pure false
  else
    let nm ← readFull 1
    let methods ← readFull (nm.get 0).toNat
    let noAuth := methods.1.any fun m => m == 0x00
    if ¬ noAuth then
      bestEffort (write [0x05, 0xFF])
      pure false
    else
      write [0x05, 0x00]
      pure true

/-- `uint16(pb[0])<<8 | uint16(pb[1])`. -/
def portOf (pb : Block 2) : UInt16 := (pb.get 0).toUInt16 <<< 8 ||| (pb.get 1).toUInt16

/-- The request: command, host and port. -/
def readRequest : EStateM SocksError Conn (UInt8 × Bytes × UInt16) := do
  let req ← readFull 4
  let host ← readATYPAddr (req.get 3)
  let pb ← readFull 2
  pure (req.get 1, host, portOf pb)

/-- What follows the request. -/
def answer (lower : Nat → Nat) (dnsMap : Mapping) (cmd : UInt8) (host : Bytes) (port : UInt16) :
    EStateM SocksError World Served := do
  if cmd ≠ 0x01 then
    socksFail
    pure .closed
  else
    match ← attempt (dialUpstream (rewriteHost lower host dnsMap) port) with
    | .error _ =>
        socksFail
        pure .closed
    | .ok () =>
        onClient (write socksOKReply)
        pure .relay

def serveConn (lower : Nat → Nat) (dnsMap : Mapping) : EStateM SocksError World Served := do
  if ← onClient greet then
    let (cmd, host, port) ← onClient readRequest
    answer lower dnsMap cmd host port
  else pure .closed

/-- The goroutine of a connection. -/
def handle (lower : Nat → Nat) (dnsMap : Mapping) (w : World) : Served × World :=
  recover .closed (serveConn lower dnsMap w)

/-! ## Messages -/

/-- The text that `readATYPAddr` makes of an address. -/
def hostText : Address → Bytes
  | .ipv4 octets => ipv4String octets
  | .domain name _ => name
  | .ipv6 octets => ipv6String octets

/-- `readATYPAddr` reads an address and prints it. -/
theorem readATYPAddr_eq (atyp : UInt8) :
    readATYPAddr atyp = hostText <$> readAddress .io .unsupportedAtyp atyp := by
  unfold readATYPAddr
  split
  · simp only [readAddress, map_bind, map_pure]
    rfl
  · simp only [readAddress, map_bind, map_pure]
    rfl
  · simp only [readAddress, map_bind, map_pure]
    rfl
  · next notIpv4 notDomain notIpv6 =>
    rw [readAddress_unsupported notIpv4 notDomain notIpv6]
    rfl

theorem to4_v4InV6 (ip4 : Ipv4Addr) : to4 (v4InV6 ip4) = some ip4.octets := by
  have size : Ipv6Addr.mappedHead.length = 12 := rfl
  have head : (v4InV6 ip4).1.take 12 = Ipv6Addr.mappedHead := List.take_left' size
  have tail : (v4InV6 ip4).1.drop 12 = ip4.octets.1 := List.drop_left' size
  rw [to4, Ipv6Addr.toIpv4Mapped, if_pos head, Option.map_some, Option.some.injEq]
  exact Subtype.ext tail

/-- An address with a form of four bytes is that form in sixteen. -/
theorem v4InV6_of_to4 {ip : Block 16} {ip4 : Block 4} (mapped : to4 ip = some ip4) :
    v4InV6 ⟨ip4⟩ = ip := by
  rw [to4, Option.map_eq_some_iff] at mapped
  obtain ⟨inner, isMapped, rfl⟩ := mapped
  unfold Ipv6Addr.toIpv4Mapped at isMapped
  split at isMapped
  · next head =>
    cases isMapped
    apply Subtype.ext
    change Ipv6Addr.mappedHead ++ ip.1.drop 12 = ip.1
    rw [← head, List.take_append_drop]
  · cases isMapped

theorem portOf_eq (pb : Block 2) : portOf pb = fromBeBytes pb := by
  have high := (pb.get 0).toNat_lt
  have low := (pb.get 1).toNat_lt
  have word : (fromBeBytes pb).toNat = 256 * (pb.get 0).toNat + (pb.get 1).toNat := by
    rw [fromBeBytes, UInt16.toNat_ofNat']
    omega
  have shifted : (pb.get 0).toNat <<< 8 % 65536 = (pb.get 0).toNat <<< 8 := by
    rw [Nat.shiftLeft_eq]
    omega
  apply UInt16.toNat_inj.mp
  rw [word, portOf, UInt16.toNat_or, UInt16.toNat_shiftLeft, UInt8.toNat_toUInt16,
    UInt8.toNat_toUInt16]
  change (pb.get 0).toNat <<< 8 % 65536 ||| _ = _
  rw [shifted, ← Nat.shiftLeft_add_eq_or_of_lt low, Nat.shiftLeft_eq]
  omega

theorem portBytes_eq (port : UInt16) : portBytes port = (toBeBytes port).1 := by
  have high : (port >>> 8).toUInt8 = UInt8.ofNat (port.toNat / 256) := by
    apply UInt8.toNat_inj.mp
    rw [UInt16.toNat_toUInt8, UInt16.toNat_shiftRight, UInt8.toNat_ofNat']
    change port.toNat >>> 8 % 256 = _
    rw [Nat.shiftRight_eq_div_pow]
  have low : port.toUInt8 = UInt8.ofNat port.toNat := by
    apply UInt8.toNat_inj.mp
    rw [UInt16.toNat_toUInt8, UInt8.toNat_ofNat']
  rw [portBytes, high, low]
  rfl

theorem readRequest_eq :
    readRequest = (fun frame : Frame => (frame.code, hostText frame.address, fromBeBytes frame.port)) <$>
      readFrame .io .unsupportedAtyp := by
  simp only [readRequest, readFrame, readTail, readATYPAddr_eq, map_bind, map_pure, bind_map_left,
    bind_assoc, pure_bind, portOf_eq]
  rfl

end TailcatSocks.Go
