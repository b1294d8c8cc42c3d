import TailcatSocks.Socks.Read
import TailcatSocks.Socks.World
import TailcatSocks.Python.DnsMap

/-!
# The Python front end up to the relay

`_handle` with the functions it calls.  Exceptions are of two kinds, because the
source treats two kinds differently: an `OSError` (a closed or failed
connection, a time-out, a text that is no address) and a `ValueError` (an
unknown address type, a text that is not ASCII or holds a NUL, a byte that is
none).  The address functions of the C library are parameters.
-/

namespace TailcatSocks.Python

open Library Socks

inductive Raised where
  | osError
  | valueError
  deriving DecidableEq, Repr

/-- `socket.inet_aton`, `inet_pton` and `inet_ntop` for `AF_INET6`; none stands
for an `OSError`.  A text with a NUL is refused before they are called. -/
structure Inet where
  aton : Str → Option (Block 4)
  pton : Str → Option (Block 16)
  ntop : Block 16 → Str

/-- `socket.inet_ntoa` -/
def inetNtoa (b : Block 4) : Str := ofAscii (Ipv4Addr.text ⟨b⟩)

/-- `try: body` with `except OSError: handler`. -/
def exceptOsError {σ α : Type} (body handler : EStateM Raised σ α) : EStateM Raised σ α :=
  fun s =>
    match body s with
    | .error .osError t => handler t
    | result => result

/-- `_readn` -/
def readn (n : Nat) : EStateM Raised Conn (Block n) := readExact (fun _ => .osError) n

def sendall (bytes : Bytes) : EStateM Raised Conn Unit := writeAll (fun _ => .osError) bytes

/-- `_read_atyp_addr` -/
def readAtypAddr (inet : Inet) (atyp : UInt8) : EStateM Raised Conn Str :=
  match atyp with
  | 0x01 => do
      let b ← readn 4
      pure (inetNtoa b)
  | 0x03 => do
      let dlen ← readn 1
      let name ← readn (dlen.get 0).toNat
      match decodeAscii name.1 with
      | some s => pure s
      | none => throw .valueError
  | 0x04 => do
      let b ← readn 16
      pure (inet.ntop b)
  | _ => throw .valueError

/-! ## The upstream -/

def colon : Nat := 58

/-- `_looks_like_ip` -/
def looksLikeIp (inet : Inet) (host : Str) : Except Raised Bool :=
  if 0 ∈ host then .error .valueError
  else .ok ((inet.aton host).isSome || (inet.pton host).isSome)

/-- The request that `_upstream_connect` makes. -/
def upstreamRequest (inet : Inet) (host : Str) (port : UInt16) : Except Raised Bytes := do
  let hb ←
    match encodeAscii host with
    | some hb => .ok hb
    | none => .error .valueError
  let addr ←
    if ← looksLikeIp inet host then
      if colon ∈ host then
        match inet.pton host with
        | some ip => .ok (0x04 :: ip.1)
        | none => .error .osError
      else
        match inet.aton host with
        | some ip => .ok (0x01 :: ip.1)
        | none => .error .osError
    else if 255 < hb.length then .error .valueError
    else .ok (0x03 :: UInt8.ofNat hb.length :: hb)
  .ok ([0x05, 0x01, 0x00] ++ addr ++ (toBeBytes port).1)

/-- What `_upstream_connect` does once the request is sent. -/
def upstreamReply (inet : Inet) : EStateM Raised Conn Bool := do
  let rep ← readn 4
  if rep.get 0 ≠ 0x05 ∨ rep.get 1 ≠ 0x00 then pure false
  else
    let _ ← readAtypAddr inet (rep.get 3)
    let _ ← readn 2
    pure true

/-- `_upstream_connect` -/
def upstreamConnect (inet : Inet) (host : Str) (port : UInt16) : EStateM Raised Conn Bool := do
  sendall [0x05, 0x01, 0x00]
  let resp ← readn 2
  if resp.get 0 ≠ 0x05 ∨ resp.get 1 ≠ 0x00 then pure false
  else
    match upstreamRequest inet host port with
    | .error e => throw e
    | .ok req =>
        sendall req
        upstreamReply inet

/-! ## One connection -/

def socksOkReply : Bytes := [0x05, 0x00, 0x00, 0x01, 0, 0, 0, 0, 0, 0]

def socksFailReply : Bytes := [0x05, 0x01, 0x00, 0x01, 0, 0, 0, 0, 0, 0]

/-- `_socks_fail` -/
def socksFail : EStateM Raised World Unit := onClient (sendall socksFailReply)

/-- The greeting and its answer: whether to go on. -/
def greet : EStateM Raised Conn Bool := do
  let ver ← readn 1
  if ver.get 0 ≠ 0x05 then pure false
  else
    let nmethods ← readn 1
    let methods ← readn (nmethods.get 0).toNat
    if 0x00 ∈ methods.1 then
      sendall [0x05, 0x00]
      pure true
    else
      sendall [0x05, 0xFF]
      pure false

/-- The request: command, host and port. -/
def readRequest (inet : Inet) : EStateM Raised Conn (UInt8 × Str × UInt16) := do
  let req ← readn 4
  let host ← readAtypAddr inet (req.get 3)
  let port ← readn 2
  pure (req.get 1, host, fromBeBytes port)

/-- The first `try` of `_handle_inner`, around `socket.create_connection`. -/
def openUpstream : EStateM Raised World Bool :=
  exceptOsError
    (do
      dial fun _ => .osError
      pure true)
    (do
      socksFail
      pure false)

/-- The second one, around `_upstream_connect`. -/
def connectUpstream (inet : Inet) (host : Str) (port : UInt16) : EStateM Raised World Bool :=
  exceptOsError
    (do
      if ← onUpstream (upstreamConnect inet host port) then pure true
      else
        socksFail
        pure false)
    (do
      socksFail
      pure false)

/-- What follows the request. -/
def answer (inet : Inet) (table : Str → Str) (dnsMap : Mapping) (cmd : UInt8) (host : Str)
    (port : UInt16) : EStateM Raised World Served := do
  if cmd ≠ 0x01 then
    socksFail
    pure .closed
  else if ← openUpstream then
    if ← connectUpstream inet (rewriteHost table host dnsMap) port then
      onClient (sendall socksOkReply)
      pure .relay
    else pure .closed
  else pure .closed

/-- `_handle_inner` -/
def handleInner (inet : Inet) (table : Str → Str) (dnsMap : Mapping) :
    EStateM Raised World Served := do
  if ← onClient greet then
    let (cmd, host, port) ← onClient (readRequest inet)
    answer inet table dnsMap cmd host port
  else pure .closed

/-- `_handle`, which drops what is raised and closes the client. -/
def handle (inet : Inet) (table : Str → Str) (dnsMap : Mapping) (w : World) : Served × World :=
  recover .closed (handleInner inet table dnsMap w)

/-! ## Exceptions -/

section Exceptions

variable {σ α : Type} {body handler : EStateM Raised σ α} {s t : σ}

theorem exceptOsError_of_ok {a : α} (done : body s = .ok a t) :
    exceptOsError body handler s = .ok a t := by
  simp only [exceptOsError, done]

theorem exceptOsError_of_osError (failed : body s = .error .osError t) :
    exceptOsError body handler s = handler t := by
  simp only [exceptOsError, failed]

theorem exceptOsError_of_valueError (failed : body s = .error .valueError t) :
    exceptOsError body handler s = .error .valueError t := by
  simp only [exceptOsError, failed]

end Exceptions

/-! ## Messages -/

theorem readn_front {n : Nat} (front : Block n) (rest written : Bytes) :
    readn n ⟨front.1 ++ rest, written, none⟩ = .ok front ⟨rest, written, none⟩ :=
  readExact_uncut _ front rest written

theorem readn_short {n : Nat} {unread : Bytes} (written : Bytes) (short : unread.length < n) :
    ∃ next, readn n ⟨unread, written, none⟩ = .error .osError next :=
  ⟨_, readExact_short _ written short⟩

/-- The text that `_read_atyp_addr` makes of an address. -/
def hostText (inet : Inet) : Address → Option Str
  | .ipv4 octets => some (inetNtoa octets)
  | .domain name _ => decodeAscii name
  | .ipv6 octets => some (inet.ntop octets)

def textOrRaise (inet : Inet) (address : Address) : EStateM Raised Conn Str :=
  match hostText inet address with
  | some s => pure s
  | none => throw .valueError

/-- `_read_atyp_addr` reads an address and prints or decodes it. -/
theorem readAtypAddr_eq (inet : Inet) (atyp : UInt8) :
    readAtypAddr inet atyp =
      readAddress (fun _ => .osError) (fun _ => .valueError) atyp >>= textOrRaise inet := by
  unfold readAtypAddr
  split
  · simp only [readAddress, bind_assoc, pure_bind]
    rfl
  · simp only [readAddress, bind_assoc, pure_bind]
    rfl
  · simp only [readAddress, bind_assoc, pure_bind]
    rfl
  · next notIpv4 notDomain notIpv6 =>
    rw [readAddress_unsupported notIpv4 notDomain notIpv6]
    rfl

theorem readAtypAddr_of_text {inet : Inet} {address : Address} {host : Str}
    (text : hostText inet address = some host) (rest written : Bytes) :
    readAtypAddr inet address.atyp ⟨address.body ++ rest, written, none⟩ =
      .ok host ⟨rest, written, none⟩ := by
  rw [readAtypAddr_eq, bind_of_ok (readAddress_uncut address rest written), textOrRaise, text]
  rfl

theorem readAtypAddr_of_no_text {inet : Inet} {address : Address}
    (text : hostText inet address = none) (rest written : Bytes) :
    readAtypAddr inet address.atyp ⟨address.body ++ rest, written, none⟩ =
      .error .valueError ⟨rest, written, none⟩ := by
  rw [readAtypAddr_eq, bind_of_ok (readAddress_uncut address rest written), textOrRaise, text]
  rfl

theorem decodeAscii_eq_none_iff {name : Bytes} : decodeAscii name = none ↔ ¬ IsAscii name := by
  unfold decodeAscii IsAscii
  simp

end TailcatSocks.Python
