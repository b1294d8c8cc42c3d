import TailcatSocks.Rust.Proxy

/-!
# What the upstream is asked for

The request that `upstream_connect` writes is read back with the reader that
the program has for its own clients.  Every target that has an address in the
sense of the protocol comes back; a name too long for its length byte does not.
-/

namespace TailcatSocks.Rust

open Library Socks

theorem atypFor_ipv4_text (ip : Ipv4Addr) : atypFor ip.text = .v4 ip := by
  rw [atypFor, if_pos (validUtf8_ascii ip.isAscii_text), parseIpv4_text]

theorem atypFor_ipv6_text (ip : Ipv6Addr) : atypFor ip.text = .v6 ip := by
  rw [atypFor, if_pos (validUtf8_ascii ip.isAscii_text), parseIpv4_ipv6_text, parseIpv6_text]

/-- The address that stands for a target, if there is one. -/
def targetAddress (host : Bytes) : Option Address :=
  match atypFor host with
  | .v4 ip => some (.ipv4 ip.octets)
  | .v6 ip6 => some (.ipv6 ip6.octets)
  | .domain => if short : host.length ≤ 255 then some (.domain host short) else none

theorem targetAddress_isSome_iff (host : Bytes) :
    (∃ address, targetAddress host = some address) ↔
      atypFor host ≠ .domain ∨ host.length ≤ 255 := by
  unfold targetAddress
  cases kind : atypFor host with
  | v4 _ | v6 _ => simp
  | domain =>
      by_cases short : host.length ≤ 255
      · simp [short]
      · simp [short]

/-- For a target with an address the request is a frame. -/
theorem upstreamRequest_eq {host : Bytes} {address : Address}
    (stands : targetAddress host = some address) (port : UInt16) :
    upstreamRequest host port =
      (Frame.mk version connect 0 address (toBeBytes port)).encode := by
  unfold targetAddress at stands
  unfold upstreamRequest
  cases kind : atypFor host with
  | v4 _ | v6 _ =>
      simp only [kind, Option.some.injEq] at stands
      subst stands
      rfl
  | domain =>
      by_cases short : host.length ≤ 255
      · simp only [kind, dif_pos short, Option.some.injEq] at stands
        subst stands
        rfl
      · simp only [kind, dif_neg short, reduceCtorEq] at stands

/-- Two texts name the same target: the same IP address, or the same bytes. -/
def Names (host target : Bytes) : Prop :=
  match atypFor host with
  | .domain => target = host
  | atyp => atypFor target = atyp

theorem names_hostText {host : Bytes} {address : Address}
    (stands : targetAddress host = some address) : Names host (hostText address) := by
  unfold targetAddress at stands
  unfold Names
  cases kind : atypFor host with
  | v4 ip =>
      simp only [kind, Option.some.injEq] at stands
      subst stands
      exact atypFor_ipv4_text ip
  | v6 ip6 =>
      simp only [kind, Option.some.injEq] at stands
      subst stands
      exact atypFor_ipv6_text ip6
  | domain =>
      by_cases short : host.length ≤ 255
      · simp only [kind, dif_pos short, Option.some.injEq] at stands
        subst stands
        rfl
      · simp only [kind, dif_neg short, reduceCtorEq] at stands

/-! ## The bytes written -/

theorem greeting_written {conn : Conn} (uncut : conn.cut = none) :
    writeAll SocksError.io [0x05, 0x01, 0x00] conn = .ok () (conn.advance 1 conn.unread greeting) :=
  writeAll_uncut SocksError.io greeting conn uncut

theorem upstreamConnect_written_of_refused (host : Bytes) (port : UInt16) (conn : Conn)
    (uncut : conn.cut = none) (refused : ¬ methodNone <+: conn.unread) :
    (after (upstreamConnect host port) conn).written = conn.written ++ greeting := by
  unfold upstreamConnect
  rw [after_bind_of_ok (greeting_written uncut)]
  cases read : readExact SocksError.io 2 (conn.advance 1 conn.unread greeting) with
  | error e next =>
      rw [after_of_error (bind_of_error read), readExact_error_written read, Conn.advance_written]
  | ok greet next =>
      obtain ⟨-, rest, starts, rfl⟩ := readExact_eq_ok.mp read
      have unaccepted : greet.1 ≠ [0x05, 0x00] := by
        intro accepted
        rw [Conn.advance_unread, accepted] at starts
        exact refused ⟨rest, starts.symm⟩
      rw [after_bind_of_ok read, if_pos unaccepted, after_of_error (throw_apply _ _),
        Conn.advance_written, Conn.advance_written, List.append_nil]

theorem upstreamConnect_written_of_accepted (host : Bytes) (port : UInt16) (conn : Conn)
    (room : conn.Admits 3) (accepted : methodNone <+: conn.unread) :
    (after (upstreamConnect host port) conn).written =
      conn.written ++ (greeting ++ upstreamRequest host port) := by
  obtain ⟨rest, starts⟩ := accepted
  obtain ⟨roomGreeting, roomOthers⟩ := (conn.admits_add 1 2 conn.unread greeting).mp room
  obtain ⟨roomAnswer, roomRequest⟩ := (Conn.admits_add _ 1 1 rest []).mp roomOthers
  have greeted : writeAll SocksError.io [0x05, 0x01, 0x00] conn =
      .ok () (conn.advance 1 conn.unread greeting) := writeAll_eq_ok.mpr ⟨roomGreeting, rfl⟩
  have read : readExact SocksError.io 2 (conn.advance 1 conn.unread greeting) =
      .ok ⟨[0x05, 0x00], rfl⟩ ((conn.advance 1 conn.unread greeting).advance 1 rest []) :=
    readExact_eq_ok.mpr ⟨roomAnswer, rest, starts.symm, rfl⟩
  have asked : writeAll SocksError.io (upstreamRequest host port)
        ((conn.advance 1 conn.unread greeting).advance 1 rest []) =
      .ok () (((conn.advance 1 conn.unread greeting).advance 1 rest []).advance 1 rest
        (upstreamRequest host port)) := by
    refine writeAll_eq_ok.mpr ⟨?_, ?_⟩
    · rw [awaitsFor_upstreamRequest]
      exact roomRequest
    · rw [awaitsFor_upstreamRequest, Conn.advance_unread]
  unfold upstreamConnect
  rw [after_bind_of_ok greeted, after_bind_of_ok read, if_neg (not_not.mpr rfl),
    after_bind_of_ok asked, upstreamReply_silent]
  simp only [Conn.advance_written, List.append_assoc, List.nil_append]

/-! ## Reading it back -/

/-- The upstream is either asked for nothing, or for one connection to the
target: whatever follows the request, the reader for clients takes the request
and no more, and finds the command, a name for the target, and the port. -/
def Transmits (host : Bytes) (port : UInt16) (upstream : Bytes) : Prop :=
  (after (upstreamConnect host port) (.ofBytes upstream)).written = greeting ∨
    ∃ request, (after (upstreamConnect host port) (.ofBytes upstream)).written =
        greeting ++ request ∧
      ∀ rest, ∃ target, Names host target ∧
        readRequest (.ofBytes (request ++ rest)) = .ok (connect, target, port) (.ofBytes rest)

theorem transmits_of_refused (host : Bytes) (port : UInt16) {upstream : Bytes}
    (refused : ¬ methodNone <+: upstream) : Transmits host port upstream :=
  .inl (upstreamConnect_written_of_refused host port (.ofBytes upstream) rfl refused)

theorem transmits_of_targetAddress {host : Bytes} {address : Address}
    (stands : targetAddress host = some address) (port : UInt16) (upstream : Bytes) :
    Transmits host port upstream := by
  by_cases accepted : methodNone <+: upstream
  · refine .inr ⟨upstreamRequest host port,
      upstreamConnect_written_of_accepted host port (.ofBytes upstream)
        (Conn.admits_of_uncut rfl 3) accepted, ?_⟩
    intro rest
    refine ⟨hostText address, names_hostText stands, ?_⟩
    rw [upstreamRequest_eq stands]
    refine readRequest_eq_ok.mpr ⟨_, rest, rfl, Conn.admits_of_uncut rfl _, ?_, ?_⟩
    · rw [fromBeBytes_toBeBytes]
    · rw [Conn.advance_of_uncut rfl]
      rfl
  · exact transmits_of_refused host port accepted

/-- A name that does not fit its length byte is never read back. -/
theorem not_transmits_of_oversized {host : Bytes} (kind : atypFor host = .domain)
    (oversized : 255 < host.length) (port : UInt16) {upstream : Bytes}
    (accepted : methodNone <+: upstream) : ¬ Transmits host port upstream := by
  have written := upstreamConnect_written_of_accepted host port (.ofBytes upstream)
    (Conn.admits_of_uncut rfl 3) accepted
  have request_eq : upstreamRequest host port =
      [0x05, 0x01, 0x00, 0x03, UInt8.ofNat host.length] ++ host ++ (toBeBytes port).1 := by
    rw [upstreamRequest, kind]
  rintro (nothing | ⟨request, asked, reads⟩)
  · have empty : upstreamRequest host port = [] := by
      have same : greeting ++ upstreamRequest host port = greeting := written.symm.trans nothing
      exact List.append_right_eq_self.mp same
    simp [request_eq] at empty
  · have same : request = upstreamRequest host port :=
      List.append_cancel_left (asked.symm.trans written)
    subst same
    obtain ⟨target, names, read⟩ := reads []
    obtain ⟨frame, rest, starts, -, found, -⟩ := readRequest_eq_ok.mp read
    rw [Names, kind] at names
    rw [Prod.mk.injEq, Prod.mk.injEq] at found
    obtain ⟨-, target_eq, -⟩ := found
    have atyp : frame.address.atyp = 3 := by
      have heads := congrArg (fun bytes : Bytes => bytes[3]?) starts
      simp [Conn.ofBytes, request_eq, Frame.encode, Frame.head] at heads
      exact heads.symm
    cases address : frame.address with
    | ipv4 octets =>
        rw [address] at atyp
        cases atyp
    | domain name short =>
        rw [address] at target_eq
        rw [← names, target_eq] at oversized
        exact Nat.not_lt.mpr short oversized
    | ipv6 octets =>
        rw [address] at atyp
        cases atyp

/-- The request reaches the upstream as one request for the same target exactly
when it is not asked for, or the target is an IP address or a name of at most
255 bytes. -/
theorem transmits_iff (host : Bytes) (port : UInt16) (upstream : Bytes) :
    Transmits host port upstream ↔
      ¬ methodNone <+: upstream ∨ atypFor host ≠ .domain ∨ host.length ≤ 255 := by
  constructor
  · intro transmits
    by_contra outside
    rw [not_or, not_or, not_not, ne_eq, not_not, Nat.not_le] at outside
    exact not_transmits_of_oversized outside.2.1 outside.2.2 port outside.1 transmits
  · rintro (refused | fits)
    · exact transmits_of_refused host port refused
    · obtain ⟨address, stands⟩ := (targetAddress_isSome_iff host).mpr fits
      exact transmits_of_targetAddress stands port upstream

/-- A mapping file with a token of 300 bytes, and what its name is rewritten to. -/
def longTokenFile : Bytes := List.replicate 300 116 ++ [32, 97]

/-- A client that asks for that name gets a request which is not read back. -/
theorem not_transmits_long_token :
    ¬ Transmits (rewriteHost [97] (parseDns longTokenFile)) 80 [5, 0] := by
  have token : rewriteHost [97] (parseDns longTokenFile) = List.replicate 300 116 := by
    decide +kernel
  rw [token]
  exact not_transmits_of_oversized (by decide +kernel) (by decide +kernel) 80 (by decide)

end TailcatSocks.Rust
