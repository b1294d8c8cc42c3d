import TailcatSocks.Library.Utf8
import TailcatSocks.Socks.Read
import TailcatSocks.Socks.World
import TailcatSocks.Rust.DnsMap

/-!
# The Rust front end up to the relay

`serve_conn` with the functions it calls.
-/

namespace TailcatSocks.Rust

open Library Socks

inductive SocksError where
  | upstreamRefused
  | unsupportedAtyp (atyp : UInt8)
  | io (source : Fault)
  deriving DecidableEq, Repr

def socksOkReply : Bytes := [0x05, 0x00, 0x00, 0x01, 0, 0, 0, 0, 0, 0]

def socksFailReply : Bytes := [0x05, 0x01, 0x00, 0x01, 0, 0, 0, 0, 0, 0]

def readAtypAddr (atyp : UInt8) : EStateM SocksError Conn Bytes :=
  match atyp with
  | 0x01 => do
      let b ← readExact .io 4
      pure (Ipv4Addr.text ⟨b⟩)
  | 0x03 => do
      let l ← readExact .io 1
      let b ← readExact .io (l.get 0).toNat
      pure b.1
  | 0x04 => do
      let b ← readExact .io 16
      pure (Ipv6Addr.text ⟨b⟩)
  | other => throw (.unsupportedAtyp other)

inductive Atyp where
  | v4 (ip4 : Ipv4Addr)
  | v6 (ip6 : Ipv6Addr)
  | domain
  deriving DecidableEq

def atypFor (host : Bytes) : Atyp :=
  if validUtf8 host then
    match parseIpv4 host with
    | some ip4 => .v4 ip4
    | none =>
        match parseIpv6 host with
        | some ip6 => .v6 ip6
        | none => .domain
  else .domain

/-- The request that `upstream_connect` builds. -/
def upstreamRequest (host : Bytes) (port : UInt16) : Bytes :=
  (match atypFor host with
    | .v4 ip => [0x05, 0x01, 0x00, 0x01] ++ ip.octets.1
    | .v6 ip6 => [0x05, 0x01, 0x00, 0x04] ++ ip6.octets.1
    -- the length is cast to a byte, whatever it is
    | .domain => [0x05, 0x01, 0x00, 0x03, UInt8.ofNat host.length] ++ host) ++
    (toBeBytes port).1

/-- The end of `upstream_connect`: the answer to the request. -/
def upstreamReply : EStateM SocksError Conn Unit := do
  let rep ← readExact .io 4
  if rep.get 0 ≠ 0x05 ∨ rep.get 1 ≠ 0x00 then throw .upstreamRefused
  else
    let _ ← readAtypAddr (rep.get 3)
    let _ ← readExact .io 2
    pure ()

def upstreamConnect (host : Bytes) (port : UInt16) : EStateM SocksError Conn Unit := do
  writeAll .io [0x05, 0x01, 0x00]
  let greet ← readExact .io 2
  if greet.1 ≠ [0x05, 0x00] then throw .upstreamRefused
  else
    writeAll .io (upstreamRequest host port)
    upstreamReply

/-! ## One connection -/

/-- The methods of the greeting, or nothing for another protocol version. -/
def readMethods : EStateM SocksError Conn (Option Bytes) := do
  let v ← readExact .io 1
  if v.get 0 ≠ 0x05 then pure none
  else
    let nm ← readExact .io 1
    let methods ← readExact .io (nm.get 0).toNat
    pure (some methods.1)

/-- The greeting and its answer: whether to go on. -/
def greet : EStateM SocksError Conn Bool := do
  match ← readMethods with
  | none => pure false
  | some methods =>
      if ¬ methods.contains 0x00 then
        writeAll .io [0x05, 0xFF]
        pure false
      else
        writeAll .io [0x05, 0x00]
        pure true

/-- The request: command, host and port. -/
def readRequest : EStateM SocksError Conn (UInt8 × Bytes × UInt16) := do
  let req ← readExact .io 4
  let host ← readAtypAddr (req.get 3)
  let pb ← readExact .io 2
  pure (req.get 1, host, fromBeBytes pb)

/-- Dialling and the handshake, which share one window. -/
def forward (target : Bytes) (port : UInt16) : EStateM SocksError World Unit := do
  dial .io
  onUpstream (upstreamConnect target port)

/-- What follows the request. -/
def answer (dnsMap : Mapping) (cmd : UInt8) (host : Bytes) (port : UInt16) :
    EStateM SocksError World Served := do
  if cmd ≠ 0x01 then
    onClient (writeAll .io socksFailReply)
    pure .closed
  else
    match ← attempt (forward (rewriteHost host dnsMap) port) with
    | .ok () =>
        onClient (writeAll .io socksOkReply)
        pure .relay
    | .error _ =>
        onClient (writeAll .io socksFailReply)
        pure .closed

def serveConn (dnsMap : Mapping) : EStateM SocksError World Served := do
  if ← onClient greet then
    let (cmd, host, port) ← onClient readRequest
    answer dnsMap cmd host port
  else pure .closed

/-- The connection task, which drops errors. -/
def handle (dnsMap : Mapping) (w : World) : Served × World :=
  recover .closed (serveConn dnsMap w)

/-! ## Reading messages -/

/-- The text that `read_atyp_addr` makes of an address. -/
def hostText : Address → Bytes
  | .ipv4 octets => Ipv4Addr.text ⟨octets⟩
  | .domain name _ => name
  | .ipv6 octets => Ipv6Addr.text ⟨octets⟩

/-- `read_atyp_addr` reads an address and prints it. -/
theorem readAtypAddr_eq (atyp : UInt8) :
    readAtypAddr atyp = hostText <$> readAddress .io .unsupportedAtyp atyp := by
  unfold readAtypAddr
  split
  · simp only [readAddress, map_bind, map_pure]
    rfl
  · simp only [readAddress, map_bind, map_pure]
    rfl
  · simp only [readAddress, map_bind, map_pure]
    rfl
  · next notIpv4 notDomain notIpv6 =>
    rw [readAddress_unsupported notIpv4 notDomain notIpv6]
    rfl

theorem readRequest_eq :
    readRequest = (fun frame : Frame => (frame.code, hostText frame.address, fromBeBytes frame.port)) <$>
      readFrame .io .unsupportedAtyp := by
  simp only [readRequest, readFrame, readTail, readAtypAddr_eq, map_bind, map_pure, bind_map_left,
    bind_assoc, pure_bind]

/-- The reads of a request take exactly one frame. -/
theorem readRequest_eq_ok {conn next : Conn} {read : UInt8 × Bytes × UInt16} :
    readRequest conn = .ok read next ↔
      ∃ frame : Frame, ∃ rest, conn.unread = frame.encode ++ rest ∧ conn.Admits frame.awaits ∧
        read = (frame.code, hostText frame.address, fromBeBytes frame.port) ∧
        next = conn.advance frame.awaits rest [] := by
  rw [readRequest_eq, map_eq_ok]
  constructor
  · rintro ⟨frame, done, rfl⟩
    obtain ⟨rest, starts, room, rfl⟩ := readFrame_eq_ok.mp done
    exact ⟨frame, rest, starts, room, rfl, rfl⟩
  · rintro ⟨frame, rest, starts, room, rfl, rfl⟩
    exact ⟨frame, readFrame_eq_ok.mpr ⟨rest, starts, room, rfl⟩, rfl⟩

/-- The rest of the answer is read and dropped. -/
theorem upstreamReply_eq :
    upstreamReply = readExact .io 4 >>= fun rep =>
      if rep.get 0 ≠ 0x05 ∨ rep.get 1 ≠ 0x00 then throw SocksError.upstreamRefused
      else (fun _ => ()) <$> readTail .io .unsupportedAtyp (rep.get 3) := by
  simp only [upstreamReply, readTail, readAtypAddr_eq, map_bind, map_pure, bind_map_left]

/-- The answer is accepted exactly when it is a frame that grants the request. -/
theorem upstreamReply_eq_ok {conn next : Conn} :
    upstreamReply conn = .ok () next ↔
      ∃ frame : Frame, ∃ rest, conn.unread = frame.encode ++ rest ∧ conn.Admits frame.awaits ∧
        (frame.version = version ∧ frame.code = succeeded) ∧
        next = conn.advance frame.awaits rest [] := by
  rw [upstreamReply_eq]
  constructor
  · intro done
    obtain ⟨rep, middle, readHead, others⟩ := bind_eq_ok.mp done
    obtain ⟨room, tail, starts, rfl⟩ := readExact_eq_ok.mp readHead
    split at others
    · cases others
    · next granted =>
      rw [not_or, ne_eq, ne_eq, not_not, not_not] at granted
      obtain ⟨⟨address, port⟩, others, -⟩ := map_eq_ok.mp others
      obtain ⟨isAtyp, rest, starts', room', rfl⟩ := readTail_eq_ok.mp others
      rw [head_eq isAtyp port] at starts
      obtain ⟨whole, roomWhole⟩ := frame_split.mpr ⟨room, tail, starts, starts', room'⟩
      exact ⟨_, rest, whole, roomWhole, granted, Conn.advance_advance ..⟩
  · rintro ⟨frame, rest, whole, roomWhole, ⟨isVersion, granted⟩, rfl⟩
    obtain ⟨room, tail, starts, starts', room'⟩ := frame_split.mp ⟨whole, roomWhole⟩
    refine bind_eq_ok.mpr ⟨frame.head, _, readExact_eq_ok.mpr ⟨room, tail, starts, rfl⟩, ?_⟩
    have accepted : ¬ (frame.head.get 0 ≠ 0x05 ∨ frame.head.get 1 ≠ 0x00) := by
      rw [not_or, ne_eq, ne_eq, not_not, not_not]
      exact ⟨isVersion, granted⟩
    rw [if_neg accepted]
    refine map_eq_ok.mpr ⟨(frame.address, frame.port), readTail_eq_ok.mpr
      ⟨rfl, rest, starts', room', ?_⟩, rfl⟩
    exact (conn.advance_advance _ _ tail rest [] []).symm

theorem readRequest_silent : Silent readRequest := by
  rw [readRequest_eq]
  exact .map _ readFrame_silent

theorem upstreamReply_silent : Silent upstreamReply := by
  rw [upstreamReply_eq]
  exact (Silent.readExact _ _).bind fun _ => .ite _ (.throw _) (.map _ (readTail_silent _))

/-- `readMethods` yields methods exactly when it reads a complete greeting. -/
theorem readMethods_eq_some {conn next : Conn} {methods : Bytes} :
    readMethods conn = .ok (some methods) next ↔
      ∃ greeting : Greeting, ∃ rest, conn.unread = greeting.encode ++ rest ∧
        conn.Admits greeting.awaits ∧ methods = greeting.methods ∧
        next = conn.advance greeting.awaits rest [] := by
  constructor
  · intro done
    obtain ⟨v, first, readVersion, others⟩ := bind_eq_ok.mp done
    obtain ⟨room, rest, starts, rfl⟩ := readExact_eq_ok.mp readVersion
    split at others
    · cases (pure_eq_ok.mp others).1
    · next isVersion =>
      rw [ne_eq, not_not] at isVersion
      obtain ⟨count, block, rest', starts', room', methods_eq, rfl⟩ :=
        (readCounted_eq_ok fun _ block => some block.1).mp others
      rw [Option.some.injEq] at methods_eq
      rw [Conn.advance_unread] at starts'
      have awaits : (Greeting.ofBlock count block).awaits = 1 + (1 + awaitsFor count.toNat) := by
        rw [Greeting.awaits, Greeting.ofBlock, block.2]
      refine ⟨.ofBlock count block, rest', ?_, ?_, methods_eq, ?_⟩
      · rw [starts, starts', Greeting.encode_ofBlock, block_one v, isVersion]
        rfl
      · rw [awaits]
        exact (conn.admits_add 1 _ rest []).mpr ⟨room, room'⟩
      · rw [awaits, Conn.advance_advance]
        rfl
  · rintro ⟨greeting, rest, starts, room, rfl, rfl⟩
    have size := greeting.toNat_count
    obtain ⟨roomVersion, roomRest⟩ :=
      (conn.admits_add 1 _ (greeting.count :: (greeting.methods ++ rest)) []).mp room
    refine bind_eq_ok.mpr ⟨⟨[version], rfl⟩, _, readExact_eq_ok.mpr ⟨roomVersion, _, starts, rfl⟩, ?_⟩
    rw [← size] at roomRest
    refine (readCounted_eq_ok fun _ block => some block.1).mpr
      ⟨greeting.count, ⟨greeting.methods, size.symm⟩, rest, rfl, roomRest, rfl, ?_⟩
    rw [Conn.advance_advance, size]
    rfl

theorem readMethods_silent : Silent readMethods :=
  (Silent.readExact _ _).bind fun _ => .ite _ (.pure _)
    ((Silent.readExact _ _).bind fun _ => (Silent.readExact _ _).bind fun _ => .pure _)

theorem awaitsFor_upstreamRequest (host : Bytes) (port : UInt16) :
    awaitsFor (upstreamRequest host port).length = 1 := by
  rw [awaitsFor, if_neg]
  simp [upstreamRequest, toBeBytes]

/-- The connection after the two writes of the handshake and the read between them. -/
theorem advance_request (conn : Conn) (tail request : Bytes) :
    ((conn.advance 1 conn.unread greeting).advance 1 tail []).advance 1 tail request =
      conn.advance 3 tail (greeting ++ request) := by
  rw [Conn.advance_advance, Conn.advance_advance, List.nil_append]

/-- The handshake succeeds exactly when the upstream accepts the greeting and
then grants the request, both within the window. -/
theorem upstreamConnect_eq_ok (host : Bytes) (port : UInt16) {conn next : Conn} :
    upstreamConnect host port conn = .ok () next ↔
      ∃ frame : Frame, ∃ rest, conn.unread = methodNone ++ (frame.encode ++ rest) ∧
        conn.Admits (3 + frame.awaits) ∧ (frame.version = version ∧ frame.code = succeeded) ∧
        next = conn.advance (3 + frame.awaits) rest (greeting ++ upstreamRequest host port) := by
  have one := awaitsFor_upstreamRequest host port
  constructor
  · intro done
    obtain ⟨_, first, wroteGreeting, others⟩ := bind_eq_ok.mp done
    obtain ⟨greet, second, readGreet, others⟩ := bind_eq_ok.mp others
    obtain ⟨room, rfl⟩ := writeAll_eq_ok.mp wroteGreeting
    obtain ⟨room', tail, starts, rfl⟩ := readExact_eq_ok.mp readGreet
    split at others
    · cases others
    · next accepted =>
      rw [ne_eq, not_not] at accepted
      obtain ⟨_, third, wroteRequest, others⟩ := bind_eq_ok.mp others
      obtain ⟨room'', rfl⟩ := writeAll_eq_ok.mp wroteRequest
      obtain ⟨frame, rest, whole, roomReply, granted, rfl⟩ := upstreamReply_eq_ok.mp others
      rw [Conn.advance_unread, accepted] at starts
      rw [Conn.advance_unread, Conn.advance_unread] at whole
      rw [one] at room'' roomReply ⊢
      rw [Conn.advance_unread] at roomReply ⊢
      refine ⟨frame, rest, by rw [starts, whole]; rfl, ?_, granted, ?_⟩
      · refine (conn.admits_add 3 _ tail (greeting ++ upstreamRequest host port)).mpr ⟨?_, ?_⟩
        · refine (conn.admits_add 1 2 conn.unread greeting).mpr ⟨room, ?_⟩
          exact (Conn.admits_add _ 1 1 tail []).mpr ⟨room', room''⟩
        · rw [← advance_request]
          exact roomReply
      · rw [← List.append_nil (greeting ++ upstreamRequest host port),
          ← Conn.advance_advance _ _ _ tail, ← advance_request]
        rfl
  · rintro ⟨frame, rest, starts, room, granted, rfl⟩
    obtain ⟨roomOpen, roomReply⟩ := (conn.admits_add 3 _ (frame.encode ++ rest)
      (greeting ++ upstreamRequest host port)).mp room
    obtain ⟨roomGreeting, roomOpen⟩ := (conn.admits_add 1 2 conn.unread greeting).mp roomOpen
    obtain ⟨roomAccept, roomRequest⟩ :=
      (Conn.admits_add _ 1 1 (frame.encode ++ rest) []).mp roomOpen
    rw [← advance_request] at roomReply
    refine bind_eq_ok.mpr ⟨(), _, writeAll_eq_ok.mpr ⟨roomGreeting, rfl⟩, ?_⟩
    refine bind_eq_ok.mpr ⟨⟨[0x05, 0x00], rfl⟩, _,
      readExact_eq_ok.mpr ⟨roomAccept, _, starts, rfl⟩, ?_⟩
    rw [if_neg (not_not.mpr rfl)]
    refine bind_eq_ok.mpr ⟨(), _, writeAll_eq_ok.mpr ⟨?_, rfl⟩, ?_⟩
    · rw [one]
      exact roomRequest
    · rw [one]
      refine upstreamReply_eq_ok.mpr ⟨frame, rest, rfl, roomReply, granted, ?_⟩
      rw [← List.append_nil (greeting ++ upstreamRequest host port),
        ← Conn.advance_advance _ _ _ (frame.encode ++ rest), ← advance_request]
      rfl

end TailcatSocks.Rust
