import TailcatSocks.Rust.UpstreamRequest
import TailcatSocks.Rust.ReplyDiscipline

/-!
# Targets without a mapping

An address is printed, looked up, parsed and encoded again on its way to the
upstream.  When no key of the mapping is its text, the request that goes out is
the one that came in, except that a name which is the text of an IP address
goes out as that address.
-/

namespace TailcatSocks.Rust

open Library Socks

/-! ## The lookup finds nothing -/

/-- No key of the mapping is this host, whatever the case of either. -/
def Unmapped (dnsMap : Mapping) (host : Bytes) : Prop :=
  ∀ key ∈ dnsMap.keys, toAsciiLowercase key ≠ toAsciiLowercase host

theorem rewriteHost_of_unmapped {dnsMap : Mapping} {host : Bytes}
    (unmapped : Unmapped dnsMap host) : rewriteHost host dnsMap = host := by
  have absent : toAsciiLowercase host ∉ dnsMap := fun present =>
    unmapped _ (AList.mem_keys.mp present) (toAsciiLowercase_idempotent host)
  rw [rewriteHost, AList.lookup_eq_none.mpr absent, Option.getD_none]

/-! ## The text is classified as it was -/

/-- What the upstream is asked for when a client asks for this address. -/
def passedOn (address : Address) (port : Block 2) : Bytes :=
  match address with
  | .ipv4 octets => [0x05, 0x01, 0x00, 0x01] ++ octets.1 ++ port.1
  | .ipv6 octets => [0x05, 0x01, 0x00, 0x04] ++ octets.1 ++ port.1
  | .domain name _ =>
      match parseIpv4 name, parseIpv6 name with
      | some ip4, _ => [0x05, 0x01, 0x00, 0x01] ++ ip4.octets.1 ++ port.1
      | none, some ip6 => [0x05, 0x01, 0x00, 0x04] ++ ip6.octets.1 ++ port.1
      | none, none => [0x05, 0x01, 0x00, 0x03, UInt8.ofNat name.length] ++ name ++ port.1

theorem atypFor_of_parseIpv4 {host : Bytes} {ip4 : Ipv4Addr} (parses : parseIpv4 host = some ip4) :
    atypFor host = .v4 ip4 := by
  rw [atypFor, if_pos (validUtf8_ascii (isAscii_of_parseIpv4 parses)), parses]

theorem atypFor_of_parseIpv6 {host : Bytes} {ip6 : Ipv6Addr} (noIpv4 : parseIpv4 host = none)
    (parses : parseIpv6 host = some ip6) : atypFor host = .v6 ip6 := by
  rw [atypFor, if_pos (validUtf8_ascii (isAscii_of_parseIpv6 parses)), noIpv4, parses]

/-- What is no UTF-8 and what is no text of an address are both names. -/
theorem atypFor_of_no_parse {host : Bytes} (noIpv4 : parseIpv4 host = none)
    (noIpv6 : parseIpv6 host = none) : atypFor host = .domain := by
  rw [atypFor, noIpv4, noIpv6]
  exact ite_self _

theorem upstreamRequest_hostText (address : Address) (port : Block 2) :
    upstreamRequest (hostText address) (fromBeBytes port) = passedOn address port := by
  rw [upstreamRequest, toBeBytes_fromBeBytes]
  cases address with
  | ipv4 octets =>
      rw [hostText, atypFor_ipv4_text]
      rfl
  | ipv6 octets =>
      rw [hostText, atypFor_ipv6_text]
      rfl
  | domain name short =>
      rw [hostText, passedOn]
      cases v4 : parseIpv4 name with
      | some ip4 => rw [atypFor_of_parseIpv4 v4]
      | none =>
          cases v6 : parseIpv6 name with
          | some ip6 => rw [atypFor_of_parseIpv6 v4 v6]
          | none => rw [atypFor_of_no_parse v4 v6]

/-! ## What the upstream receives -/

/-- No byte but those of the greeting and of the request goes upstream, however
the handshake ends. -/
theorem upstreamConnect_written_prefix (host : Bytes) (port : UInt16) (conn : Conn) :
    (after (upstreamConnect host port) conn).written <+:
      conn.written ++ (Socks.greeting ++ upstreamRequest host port) := by
  have begun : conn.written ++ Socks.greeting <+:
      conn.written ++ (Socks.greeting ++ upstreamRequest host port) :=
    (List.prefix_append_right_inj _).mpr (List.prefix_append _ _)
  unfold upstreamConnect
  cases wroteGreeting : writeAll SocksError.io [0x05, 0x01, 0x00] conn with
  | error e next =>
      rw [after_of_error (bind_of_error wroteGreeting)]
      exact (writeAll_error_written wroteGreeting).trans begun
  | ok _ first =>
      obtain ⟨-, rfl⟩ := writeAll_eq_ok.mp wroteGreeting
      rw [after_bind_of_ok wroteGreeting]
      change (after _ (conn.advance 1 conn.unread Socks.greeting)).written <+: _
      cases read : readExact SocksError.io 2 (conn.advance 1 conn.unread Socks.greeting) with
      | error e next =>
          rw [after_of_error (bind_of_error read), readExact_error_written read]
          exact begun
      | ok greet second =>
          obtain ⟨-, rest, -, rfl⟩ := readExact_eq_ok.mp read
          rw [after_bind_of_ok read, Conn.advance_advance, List.append_nil]
          split
          · exact begun
          · cases asked : writeAll SocksError.io (upstreamRequest host port)
                (conn.advance (1 + awaitsFor 2) rest Socks.greeting) with
            | error e next =>
                rw [after_of_error (bind_of_error asked), ← List.append_assoc]
                exact writeAll_error_written asked
            | ok _ third =>
                obtain ⟨-, rfl⟩ := writeAll_eq_ok.mp asked
                rw [after_bind_of_ok asked, upstreamReply_silent]
                simp only [Conn.advance_written, List.append_assoc, List.prefix_refl]

theorem forward_upstream (target : Bytes) (port : UInt16) (w : World) :
    (after (forward target port) w).upstream =
      if w.dialFault = none then after (upstreamConnect target port) w.upstream
      else w.upstream := by
  unfold forward
  cases dials : w.dialFault with
  | some fault =>
      have failed := dial_of_fault SocksError.io dials
      rw [after_of_error (bind_of_error failed), if_neg (Option.some_ne_none fault)]
  | none =>
      have dialled := dial_of_none SocksError.io dials
      rw [after_bind_of_ok dialled, if_pos rfl]
      rw [onUpstream, after_onPart]

/-- Answering the client leaves the upstream alone. -/
theorem reply_upstream (reply : Bytes) (served : Served) (w : World) :
    (after (onClient (writeAll SocksError.io reply) >>= fun _ => pure served) w).upstream =
      w.upstream := by
  have untouched : (after (onClient (writeAll SocksError.io reply)) w).upstream = w.upstream := by
    rw [onClient, after_onPart]
  cases replied : onClient (writeAll SocksError.io reply) w with
  | ok _ next =>
      rw [after_of_ok replied] at untouched
      rw [after_bind_of_ok replied]
      exact untouched
  | error e next =>
      rw [after_of_error replied] at untouched
      rw [after_of_error (bind_of_error replied)]
      exact untouched

theorem answer_upstream (dnsMap : Mapping) (host : Bytes) (port : UInt16) (w : World) :
    (after (answer dnsMap connect host port) w).upstream =
      (after (forward (rewriteHost host dnsMap) port) w).upstream := by
  have asks : ¬ connect ≠ 0x01 := not_not.mpr rfl
  rw [answer, if_neg asks]
  cases forwarded : forward (rewriteHost host dnsMap) port w with
  | ok _ next =>
      rw [after_bind_of_ok (attempt_of_ok forwarded), after_of_ok forwarded]
      exact reply_upstream socksOkReply .relay next
  | error e next =>
      rw [after_bind_of_ok (attempt_of_error forwarded), after_of_error forwarded]
      exact reply_upstream socksFailReply .closed next

/-- A request to connect to a target without a mapping reaches the upstream as
it came: nothing but the greeting and this request is sent, and all of it once
the upstream is dialled and accepts the greeting in time. -/
theorem connect_passes_through (dnsMap : Mapping) {greeting : Greeting} {frame : Frame}
    (rest : Bytes) (dialFault : Option Fault) {upstream : Conn} (offers : greeting.OffersNone)
    (asks : frame.code = connect) (fresh : upstream.written = [])
    (unmapped : Unmapped dnsMap (hostText frame.address)) :
    let sent := (handle dnsMap
      (.start (greeting.encode ++ (frame.encode ++ rest)) dialFault upstream)).2.upstream.written
    let asked := Socks.greeting ++ passedOn frame.address frame.port
    sent <+: asked ∧
      (dialFault = none → methodNone <+: upstream.unread → upstream.Admits 3 → sent = asked) := by
  intro sent asked
  have sent_eq : sent =
      (if dialFault = none then
        after (upstreamConnect (hostText frame.address) (fromBeBytes frame.port)) upstream
      else upstream).written := by
    rw [← rewriteHost_of_unmapped unmapped]
    have served := answer_upstream dnsMap (hostText frame.address) (fromBeBytes frame.port)
      (accepted dialFault upstream rest)
    rw [← asks, forward_upstream] at served
    rw [← served, ← recover_snd .closed, ← serveConn_of_request dnsMap dialFault upstream offers]
    rfl
  rw [sent_eq]
  have asked_eq : asked = upstream.written ++
      (Socks.greeting ++ upstreamRequest (hostText frame.address) (fromBeBytes frame.port)) := by
    rw [fresh, upstreamRequest_hostText]
    rfl
  rw [asked_eq]
  constructor
  · split
    · exact upstreamConnect_written_prefix ..
    · exact List.prefix_append ..
  · intro dials accepts room
    rw [if_pos dials]
    exact upstreamConnect_written_of_accepted _ _ upstream room accepts

/-- A request for port 80 of the IPv4-mapped address of `127.0.0.1`. -/
def mappedRequest : Frame :=
  ⟨version, connect, 0,
    .ipv6 ⟨[0, 0, 0, 0, 0, 0, 0, 0, 0, 0, 255, 255, 127, 0, 0, 1], rfl⟩, ⟨[0, 80], rfl⟩⟩

/-- With a mapping for another name it goes out as an IPv6 address. -/
theorem mappedRequest_passes_through :
    (handle (parseDns [116, 32, 97]) (.start ([5, 1, 0] ++ (mappedRequest.encode ++ []))
        none (.ofBytes [5, 0]))).2.upstream.written =
      [5, 1, 0] ++ ([5, 1, 0, 4] ++
        [0, 0, 0, 0, 0, 0, 0, 0, 0, 0, 255, 255, 127, 0, 0, 1] ++ [0, 80]) :=
  (connect_passes_through (parseDns [116, 32, 97]) [] none
      (show Greeting.OffersNone ⟨[0], by decide⟩ by decide)
      (show mappedRequest.code = connect from rfl)
      rfl (show ∀ key ∈ (parseDns [116, 32, 97]).keys, toAsciiLowercase key ≠
        toAsciiLowercase (hostText mappedRequest.address) by decide +kernel)).2
    rfl ⟨[], rfl⟩ (Conn.admits_of_uncut rfl 3)

end TailcatSocks.Rust
