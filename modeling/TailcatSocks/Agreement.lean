import TailcatSocks.Rust.Proxy
import TailcatSocks.Go.Proxy

/-!
# The two front ends agree

Up to the relay both front ends take the same bytes, write the same bytes and
dial in the same cases.  They differ in how they print, fold and classify
hosts, so the hosts that are compared are ASCII, no longer than a length byte
can say, and not IPv4-mapped.
-/

namespace TailcatSocks

open Library Socks

/-- The text of an IPv4-mapped IPv6 address. -/
def IsMapped (text : Bytes) : Prop :=
  ∃ ip ip4, parseIpv6 text = some ip ∧ ip.toIpv4Mapped = some ip4

/-- A client asks for a host on which the front ends do not differ. -/
def PlainAddress : Address → Prop
  | .ipv4 _ => True
  | .domain name _ => IsAscii name ∧ ¬ IsMapped name
  | .ipv6 octets => Ipv6Addr.toIpv4Mapped ⟨octets⟩ = none

/-- Every request that the stream may be read as asks for such a host. -/
def PlainRequest (stream : Bytes) : Prop :=
  ∀ (greeting : Greeting) (request : Frame) (rest : Bytes),
    stream = greeting.encode ++ (request.encode ++ rest) → PlainAddress request.address

/-- Every token is such a host. -/
def PlainMapping (dnsMap : FinMap Bytes Bytes) : Prop :=
  ∀ key token, dnsMap.lookup key = some token →
    IsAscii token ∧ token.length ≤ 255 ∧ ¬ IsMapped token

/-! ## Targets -/

/-- A target on which the front ends do not differ. -/
structure PlainTarget (target : Bytes) : Prop where
  ascii : IsAscii target
  notMapped : parseIpv4 target = none → ¬ IsMapped target
  encodable : parseIpv4 target = none → parseIpv6 target = none → target.length ≤ 255

theorem plainTarget_hostText {address : Address} (plain : PlainAddress address) :
    PlainTarget (Rust.hostText address) := by
  cases address with
  | ipv4 octets =>
      have parses := parseIpv4_text ⟨octets⟩
      refine ⟨Ipv4Addr.isAscii_text _, fun absent => ?_, fun absent => ?_⟩
      · cases parses.symm.trans absent
      · cases parses.symm.trans absent
  | domain name short => exact ⟨plain.1, fun _ => plain.2, fun _ _ => short⟩
  | ipv6 octets =>
      have parses := parseIpv6_text ⟨octets⟩
      refine ⟨Ipv6Addr.isAscii_text _, fun _ => ?_, fun _ absent => ?_⟩
      · rintro ⟨ip, ip4, isIp, mapped⟩
        cases parses.symm.trans isIp
        cases plain.symm.trans mapped
      · cases parses.symm.trans absent

theorem plainTarget_rewriteHost {dnsMap : FinMap Bytes Bytes} (plain : PlainMapping dnsMap)
    {host : Bytes} (plainHost : PlainTarget host) :
    PlainTarget (Rust.rewriteHost host dnsMap) := by
  unfold Rust.rewriteHost
  cases found : dnsMap.lookup (toAsciiLowercase host) with
  | none => exact plainHost
  | some token =>
      obtain ⟨ascii, short, notMapped⟩ := plain _ _ found
      exact ⟨ascii, fun _ => notMapped, fun _ _ => short⟩

theorem rewriteHost_eq (lower : Nat → Nat) (dnsMap : FinMap Bytes Bytes) {host : Bytes}
    (ascii : IsAscii host) : Go.rewriteHost lower host dnsMap = Rust.rewriteHost host dnsMap := by
  rw [Go.rewriteHost, Rust.rewriteHost, Go.toLower_ascii lower ascii]

/-- Both print every address alike that is not IPv4-mapped. -/
theorem hostText_eq {address : Address} (plain : PlainAddress address) :
    Go.hostText address = Rust.hostText address := by
  cases address with
  | ipv4 octets => rfl
  | domain name short => rfl
  | ipv6 octets =>
      have unmapped : Go.to4 octets = none := by
        rw [Go.to4, plain]
        rfl
      rw [Go.hostText, Go.ipv6String, unmapped]
      rfl

/-! ## Requests -/

/-- Both ask the upstream for the target with the same bytes. -/
theorem socksConnectRequest_eq {target : Bytes} (plain : PlainTarget target) (port : UInt16) :
    Go.socksConnectRequest target port = .ok (Rust.upstreamRequest target port) := by
  obtain ⟨ascii, notMapped, encodable⟩ := plain
  unfold Go.socksConnectRequest Rust.upstreamRequest Rust.atypFor Go.parseIP
  rw [validUtf8_ascii ascii, if_pos rfl, Go.portBytes_eq]
  cases isV4 : parseIpv4 target with
  | some ip4 =>
      simp only [Go.to4_v4InV6]
      rfl
  | none =>
      cases isV6 : parseIpv6 target with
      | some ip6 =>
          have unmapped : Go.to4 ip6.octets = none := by
            cases mapped : ip6.toIpv4Mapped with
            | none => rw [Go.to4, mapped]; rfl
            | some ip4 => exact absurd ⟨ip6, ip4, isV6, mapped⟩ (notMapped isV4)
          simp only [Option.map_some, unmapped]
          rfl
      | none =>
          have short : ¬ 255 < target.length := Nat.not_lt.mpr (encodable isV4 isV6)
          simp only [Option.map_none, if_neg short]
          rfl

/-! ## The upstream's side -/

theorem readATYPAddr_drop {β : Type} {nextRust : EStateM Rust.SocksError Conn β}
    {nextGo : EStateM Go.SocksError Conn β} (atyp : UInt8) (rest : Agree nextRust nextGo) :
    Agree (Rust.readAtypAddr atyp >>= fun _ => nextRust)
      (Go.readATYPAddr atyp >>= fun _ => nextGo) := by
  rw [Rust.readAtypAddr_eq, Go.readATYPAddr_eq, bind_map_left, bind_map_left]
  exact (readAddress_agree _ _ _ _ _).bind fun _ => rest

theorem greet_eq_iff (greet : Block 2) :
    greet.1 ≠ [0x05, 0x00] ↔ greet.get 0 ≠ 0x05 ∨ greet.get 1 ≠ 0x00 := by
  rw [← not_and_or, not_iff_not, greet.eq_ofFn]
  simp [List.ofFn_succ]

/-- The handshakes agree, whatever the upstream sends: an address in its
answer is only read. -/
theorem upstreamConnect_agree {target : Bytes} {port : UInt16} {req : Bytes}
    (request : req = Rust.upstreamRequest target port) :
    Agree (Rust.upstreamConnect target port) (Go.socksClientConnect req) := by
  subst request
  refine (Agree.writeAll _ _ _).bind fun _ => (Agree.readExact _ _ _).bind fun greet => ?_
  simp only [greet_eq_iff]
  refine .ite _ (.throw _ _) ?_
  refine (Agree.writeAll _ _ _).bind fun _ => (Agree.readExact _ _ _).bind fun rep => ?_
  refine .ite _ (.throw _ _) ?_
  exact readATYPAddr_drop _ ((Agree.readExact _ _ _).bind fun _ => .pure _)

theorem dial_agree (raise : Fault → Rust.SocksError) (raise' : Fault → Go.SocksError) :
    Agree (dial raise) (dial raise') := by
  intro w
  unfold dial
  split
  · exact .ok _ _
  · exact .error _ _ _

theorem forward_agree {target : Bytes} (plain : PlainTarget target) (port : UInt16) :
    Agree (Rust.forward target port) (Go.dialUpstream target port) := by
  unfold Go.dialUpstream
  rw [socksConnectRequest_eq plain port]
  exact (dial_agree _ _).bind fun _ => (upstreamConnect_agree rfl).onPart

/-! ## The client's side -/

/-- The last write before a close: Rust returns its error, Go drops it. -/
theorem recover_bestEffort {σ α : Type} {last : α} {left : EStateM Rust.SocksError σ Unit}
    {right : EStateM Go.SocksError σ Unit} (agree : Agree left right) (s : σ) :
    recover last ((left >>= fun _ => pure last) s) =
      recover last ((Go.bestEffort right >>= fun _ => pure last) s) := by
  have same := agree.after_eq s
  change _ = (last, after right s)
  cases outcome : left s with
  | ok u t => rw [bind_of_ok outcome, ← same, after_of_ok outcome]; rfl
  | error e t => rw [bind_of_error outcome, ← same, after_of_error outcome]; rfl

/-- The greeting, read before it is answered. -/
theorem rust_greet_eq :
    Rust.greet = readExact .io 1 >>= fun v =>
      if v.get 0 ≠ 0x05 then pure false
      else readExact .io 1 >>= fun nm => readExact .io (nm.get 0).toNat >>= fun methods =>
        if ¬ methods.1.contains 0x00 then writeAll .io [0x05, 0xFF] >>= fun _ => pure false
        else writeAll .io [0x05, 0x00] >>= fun _ => pure true := by
  unfold Rust.greet Rust.readMethods
  rw [bind_assoc]
  congr 1
  funext v
  split
  · rw [pure_bind]
  · simp only [bind_assoc, pure_bind]

theorem noAuth_eq (methods : Bytes) :
    (methods.any fun m => m == 0x00) = methods.contains 0x00 := by
  rw [List.contains_eq_any_beq]
  congr 1
  funext m
  exact BEq.comm

theorem greet_recover (conn : Conn) :
    recover false (Rust.greet conn) = recover false (Go.greet conn) := by
  rw [rust_greet_eq]
  refine recover_bind_congr (Agree.readExact _ _ _ _) fun v first _ => ?_
  split
  · rfl
  · refine recover_bind_congr (Agree.readExact _ _ _ _) fun nm second _ => ?_
    refine recover_bind_congr (Agree.readExact _ _ _ _) fun methods third _ => ?_
    simp only [noAuth_eq]
    split
    · exact recover_bestEffort (Agree.writeAll _ _ _) third
    · exact recover_bind_congr (Agree.writeAll _ _ _ _) fun _ _ _ => rfl

/-- To go on, a whole greeting is read. -/
theorem greet_reads {conn next : Conn} (goesOn : Rust.greet conn = .ok true next) :
    ∃ greeting : Greeting, conn.unread = greeting.encode ++ next.unread := by
  obtain ⟨methods, middle, read, rest⟩ := bind_eq_ok.mp goesOn
  cases methods with
  | none => cases rest
  | some methods =>
      obtain ⟨greeting, unread, starts, -, rfl, rfl⟩ := Rust.readMethods_eq_some.mp read
      simp only at rest
      split at rest
      · obtain ⟨_, _, _, last⟩ := bind_eq_ok.mp rest
        cases last
      · obtain ⟨_, _, wrote, last⟩ := bind_eq_ok.mp rest
        obtain ⟨-, rfl⟩ := writeAll_eq_ok.mp wrote
        cases last
        exact ⟨greeting, starts⟩

/-- What follows the request is the same for a host on which they do not differ. -/
theorem answer_recover (lower : Nat → Nat) {dnsMap : FinMap Bytes Bytes}
    (plainMapping : PlainMapping dnsMap) (cmd : UInt8) {address : Address}
    (plain : PlainAddress address) (port : UInt16) (w : World) :
    recover .closed (Rust.answer dnsMap cmd (Rust.hostText address) port w) =
      recover .closed (Go.answer lower dnsMap cmd (Go.hostText address) port w) := by
  have fails (w : World) : recover .closed ((onClient (writeAll .io Rust.socksFailReply) >>=
      fun _ => pure Served.closed : EStateM Rust.SocksError World Served) w) =
        recover .closed ((Go.socksFail >>= fun _ => pure Served.closed) w) :=
    recover_bestEffort (Agree.writeAll _ _ _).onPart w
  have plainHost := plainTarget_hostText plain
  have forwards := forward_agree (plainTarget_rewriteHost plainMapping plainHost) port w
  unfold Rust.answer Go.answer
  rw [hostText_eq plain, rewriteHost_eq lower dnsMap plainHost.ascii]
  split
  · exact fails w
  · generalize leftIs : Rust.forward _ port w = left at forwards
    generalize rightIs : Go.dialUpstream _ port w = right at forwards
    cases forwards with
    | ok u t =>
        rw [bind_of_ok (attempt_of_ok leftIs), bind_of_ok (attempt_of_ok rightIs)]
        exact recover_bind_congr ((Agree.writeAll _ _ _).onPart t) fun _ _ _ => rfl
    | error e d t =>
        rw [bind_of_ok (attempt_of_error leftIs), bind_of_ok (attempt_of_error rightIs)]
        exact fails t

/-! ## Whole connections -/

/-- What follows a greeting that is accepted. -/
theorem request_recover (lower : Nat → Nat) {dnsMap : FinMap Bytes Bytes}
    (plainMapping : PlainMapping dnsMap) {w : World}
    (plainRequest : ∀ (request : Frame) (rest : Bytes),
      w.client.unread = request.encode ++ rest → PlainAddress request.address) :
    recover .closed ((onClient Rust.readRequest >>= fun read =>
        Rust.answer dnsMap read.1 read.2.1 read.2.2) w) =
      recover .closed ((onClient Go.readRequest >>= fun read =>
        Go.answer lower dnsMap read.1 read.2.1 read.2.2) w) := by
  rw [Rust.readRequest_eq, Go.readRequest_eq, onClient, onClient, onPart_map, onPart_map,
    bind_map_left, bind_map_left]
  refine recover_bind_congr ((readFrame_agree _ _ _ _).onPart w) fun frame w' reads => ?_
  obtain ⟨client, read, rfl⟩ := onPart_eq_ok reads
  obtain ⟨rest, starts, -, -⟩ := readFrame_eq_ok.mp read
  exact answer_recover lower plainMapping _ (plainRequest frame rest starts) _ _

theorem handle_eq (lower : Nat → Nat) {dnsMap : FinMap Bytes Bytes}
    (plainMapping : PlainMapping dnsMap) {w : World} (plainRequest : PlainRequest w.client.unread) :
    Rust.handle dnsMap w = Go.handle lower dnsMap w := by
  have greets : recover false (onClient Rust.greet w) = recover false (onClient Go.greet w) := by
    rw [onClient, onClient, recover_onPart, recover_onPart, greet_recover]
  unfold Rust.handle Go.handle Rust.serveConn Go.serveConn
  rw [recover_bind false w fun _ => rfl, recover_bind false w fun _ => rfl, ← greets]
  cases recovered : recover false (onClient Rust.greet w) with
  | mk goesOn w' =>
    cases goesOn with
    | false => rfl
    | true =>
        obtain ⟨client, greeted, rfl⟩ := onPart_eq_ok
          (eq_ok_of_recover recovered Bool.noConfusion)
        obtain ⟨greeting, starts⟩ := greet_reads greeted
        refine request_recover lower plainMapping fun request rest follows => ?_
        exact plainRequest greeting request rest (by rw [starts]; exact congrArg _ follows)

/-- For every client stream, every mapping and every way in which the upstream
behaves, on hosts and tokens that are ASCII, short enough and not IPv4-mapped:
both front ends write the same to the client, dial in the same cases, write the
same upstream, go on to the relay in the same cases, and leave the same bytes of
both streams to it. -/
theorem front_ends_agree (lower : Nat → Nat) (dnsMap : FinMap Bytes Bytes)
    (stream answer : Bytes) (dialFault : Option Fault) (plainMapping : PlainMapping dnsMap)
    (plainRequest : PlainRequest stream) :
    Rust.handle dnsMap (.start stream dialFault (.ofBytes answer)) =
      Go.handle lower dnsMap (.start stream dialFault (.ofBytes answer)) :=
  handle_eq lower plainMapping plainRequest

/-- A client offers no authentication and asks for `a:80`. -/
def askForA : Bytes := [5, 1, 0, 5, 1, 0, 3, 1, 97, 0, 80]

theorem plainRequest_askForA : PlainRequest askForA := by
  intro greeting request rest starts
  have greeted : Rust.readMethods (.ofBytes askForA) = .ok (some greeting.methods) _ :=
    Rust.readMethods_eq_some.mpr ⟨greeting, _, starts, Conn.admits_of_uncut rfl _, rfl, rfl⟩
  have readsGreeting : Rust.readMethods (.ofBytes askForA) =
      .ok (some [0]) ⟨[5, 1, 0, 3, 1, 97, 0, 80], [], none⟩ := rfl
  have follows : request.encode ++ rest = [5, 1, 0, 3, 1, 97, 0, 80] :=
    congrArg Conn.unread (EStateM.Result.ok.inj (greeted.symm.trans readsGreeting)).2
  have asked : readFrame Rust.SocksError.io .unsupportedAtyp ⟨_, [], none⟩ = .ok request _ :=
    readFrame_eq_ok.mpr ⟨rest, follows.symm, Conn.admits_of_uncut rfl _, rfl⟩
  have readsRequest : readFrame Rust.SocksError.io .unsupportedAtyp
      ⟨[5, 1, 0, 3, 1, 97, 0, 80], [], none⟩ =
        .ok ⟨5, 1, 0, .domain [97] (by decide), ⟨[0, 80], rfl⟩⟩ ⟨[], [], none⟩ := rfl
  obtain rfl := (EStateM.Result.ok.inj (asked.symm.trans readsRequest)).1
  refine ⟨by decide, ?_⟩
  rintro ⟨ip, ip4, parses, -⟩
  have unparsed : parseIpv6 [97] = none := by decide
  cases unparsed.symm.trans parses

/-- The token of `a` is `t`. -/
def mapAToT : FinMap Bytes Bytes := AList.insert [97] [116] ∅

theorem plainMapping_mapAToT : PlainMapping mapAToT := by
  intro key token found
  by_cases same : key = [97]
  · rw [same, mapAToT, AList.lookup_insert] at found
    cases found
    refine ⟨by decide, by decide, ?_⟩
    rintro ⟨ip, ip4, parses, -⟩
    have unparsed : parseIpv6 [116] = none := by decide
    cases unparsed.symm.trans parses
  · rw [mapAToT, AList.lookup_insert_ne same, AList.lookup_empty] at found
    cases found

/-- The upstream grants the request and sends two bytes. -/
theorem front_ends_agree_askForA :
    Rust.handle mapAToT
        (.start askForA none (.ofBytes [5, 0, 5, 0, 0, 1, 0, 0, 0, 0, 0, 0, 79, 75])) =
      Go.handle id mapAToT
        (.start askForA none (.ofBytes [5, 0, 5, 0, 0, 1, 0, 0, 0, 0, 0, 0, 79, 75])) :=
  front_ends_agree id mapAToT askForA [5, 0, 5, 0, 0, 1, 0, 0, 0, 0, 0, 0, 79, 75] none
    plainMapping_mapAToT plainRequest_askForA

end TailcatSocks
