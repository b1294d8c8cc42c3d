import TailcatSocks.Python.Answered

/-!
# What the Python front end asks its upstream for

`_upstream_connect` takes a host for an IP address when the C library does.
`inet_aton` reads many a text that is no dotted quad, and such a name goes out
as an address.
-/

namespace TailcatSocks.Python

open Library Socks

variable {inet : Inet} {host : Str}

/-! ## What is written -/

theorem readAtypAddr_silent (inet : Inet) (atyp : UInt8) : Silent (readAtypAddr inet atyp) := by
  rw [readAtypAddr_eq]
  refine (readAddress_silent atyp).bind fun address => ?_
  unfold textOrRaise
  split
  · exact .pure _
  · exact .throw _

theorem upstreamReply_silent (inet : Inet) : Silent (upstreamReply inet) :=
  (Silent.readExact _ _).bind fun rep => .ite _ (.pure _)
    ((readAtypAddr_silent inet (rep.get 3)).bind fun _ => (Silent.readExact _ _).bind fun _ =>
      .pure _)

/-- What the upstream is sent after the greeting: the request, if one can be made. -/
def sentRequest (inet : Inet) (host : Str) (port : UInt16) : Bytes :=
  match upstreamRequest inet host port with
  | .ok req => req
  | .error _ => []

/-- An upstream that accepts the greeting is sent the request and nothing more. -/
theorem upstreamConnect_written (inet : Inet) (host : Str) (port : UInt16) (answer : Bytes) :
    (after (upstreamConnect inet host port) (.ofBytes (methodNone ++ answer))).written =
      greeting ++ sentRequest inet host port := by
  have wroteGreeting := sendall_uncut [0x05, 0x01, 0x00] (methodNone ++ answer) []
  have readGreet := readn_front (⟨methodNone, rfl⟩ : Block 2) answer ([] ++ [0x05, 0x01, 0x00])
  unfold upstreamConnect sentRequest Conn.ofBytes
  rw [after_bind_of_ok wroteGreeting, after_bind_of_ok readGreet, if_neg (by decide)]
  cases upstreamRequest inet host port with
  | error e => rfl
  | ok req =>
      dsimp only
      rw [after_bind_of_ok (sendall_uncut ..), upstreamReply_silent]
      rfl

/-! ## What is asked for -/

/-- The request decodes to the port and to the host: as a name, or as the
address that the host spells. -/
def Targets (inet : Inet) (host : Str) (port : UInt16) (sent : Bytes) : Prop :=
  ∃ text, readRequest inet (.ofBytes sent) = .ok (connect, text, port) ⟨[], [], none⟩ ∧
    ((sent[3]? = some 3 ∧ text = host) ∨ (sent[3]? = some 1 ∧ text = host) ∨
      (sent[3]? = some 4 ∧ (inet.pton host).isSome = true ∧ inet.pton text = inet.pton host))

/-- `inet_aton` reads the host, but as an address that is written otherwise. -/
def Misread (inet : Inet) (host : Str) : Prop :=
  colon ∉ host ∧ ∃ ip, inet.aton host = some ip ∧ inetNtoa ip ≠ host

theorem readRequest_requestFrame {address : Address} {text : Str}
    (spelt : hostText inet address = some text) (port : UInt16) :
    readRequest inet (.ofBytes (requestFrame address port).encode) =
      .ok (connect, text, port) ⟨[], [], none⟩ := by
  have reads := @readRequest_of_frame inet text (requestFrame address port) spelt [] []
  rw [List.append_nil] at reads
  rw [Conn.ofBytes, reads]
  change EStateM.Result.ok (connect, text, fromBeBytes (toBeBytes port)) _ = _
  rw [fromBeBytes_toBeBytes]

/-- A request that is made asks for the host exactly when `inet_aton` has not
misread it. -/
theorem StandsFor.targets_requestFrame {address : Address} (standsFor : StandsFor inet host address)
    (inverse : ∀ ip, inet.pton (inet.ntop ip) = some ip) (port : UInt16) :
    Targets inet host port (requestFrame address port).encode ↔ ¬ Misread inet host := by
  have decodes : ∀ {text : Str}, hostText inet address = some text → ∀ {text' port' next},
      readRequest inet (.ofBytes (requestFrame address port).encode) =
        .ok (connect, text', port') next → text' = text := by
    intro text spelt text' port' next reads
    rw [readRequest_requestFrame spelt] at reads
    cases reads
    rfl
  cases standsFor with
  | @ipv6 ip inside parses =>
      refine iff_of_true ⟨inet.ntop ip, readRequest_requestFrame rfl port, .inr (.inr ?_)⟩
        fun misread => misread.1 inside
      exact ⟨rfl, by rw [parses]; rfl, by rw [inverse, parses]⟩
  | @ipv4 ip outside parses =>
      constructor
      · rintro ⟨text, reads, ⟨isName, -⟩ | ⟨-, same⟩ | ⟨isIpv6, -⟩⟩ ⟨-, ip', parses', differs⟩
        · cases isName
        · rw [parses, Option.some.injEq] at parses'
          rw [decodes rfl reads, parses'] at same
          exact differs same
        · cases isIpv6
      · intro right
        have same : inetNtoa ip = host := by
          by_contra differs
          exact right ⟨outside, ip, parses, differs⟩
        exact ⟨inetNtoa ip, readRequest_requestFrame rfl port, .inr (.inl ⟨rfl, same⟩)⟩
  | @name name short refused encodes =>
      have spelt : hostText inet (.domain name short) = some host :=
        decodeAscii_of_encodeAscii encodes
      refine iff_of_true ⟨host, readRequest_requestFrame spelt port, .inl ⟨rfl, rfl⟩⟩ ?_
      rintro ⟨-, ip, parses, -⟩
      rw [refused] at parses
      cases parses

theorem targets_nil (port : UInt16) : ¬ Targets inet host port [] := by
  rintro ⟨text, -, ⟨none, -⟩ | ⟨none, -⟩ | ⟨none, -⟩⟩ <;> cases none

/-- `_upstream_connect` asks for the host it was given exactly when the host has
no NUL, is not taken for an address of the wrong kind, and is not misread; a
request that is sent at all fails to only when it is misread. -/
theorem targets_iff (inverse : ∀ ip, inet.pton (inet.ntop ip) = some ip)
    (ascii : ∀ code ∈ host, code < 128) (short : host.length ≤ 255) (port : UInt16)
    (answer : Bytes) :
    ∃ sent, (after (upstreamConnect inet host port)
        (.ofBytes (methodNone ++ answer))).written = greeting ++ sent ∧
      (Targets inet host port sent ↔ 0 ∉ host ∧ ¬ Mistaken inet host ∧ ¬ Misread inet host) ∧
      (sent ≠ [] → (Targets inet host port sent ↔ ¬ Misread inet host)) := by
  refine ⟨_, upstreamConnect_written inet host port answer, ?_⟩
  by_cases made : 0 ∉ host ∧ ¬ Mistaken inet host
  · obtain ⟨noNul, notMistaken⟩ := made
    obtain ⟨address, standsFor, isRequest⟩ :=
      upstreamRequest_standsFor ⟨ascii, noNul, .inr (.inr short)⟩ notMistaken port
    have targets := standsFor.targets_requestFrame inverse port
    rw [sentRequest, isRequest]
    refine ⟨targets.trans ?_, fun _ => targets⟩
    exact ⟨fun right => ⟨noNul, notMistaken, right⟩, fun both => both.2.2⟩
  · have nothing : sentRequest inet host port = [] := by
      have requested := upstreamRequest_requested inet host port
      unfold sentRequest
      generalize upstreamRequest inet host port = request at requested
      cases requested with
      | unsendable _ => rfl
      | mistaken _ _ => rfl
      | made sendable notMistaken => exact absurd ⟨sendable.noNul, notMistaken⟩ made
    rw [nothing]
    refine ⟨iff_of_false (targets_nil port) fun all => made ⟨all.1, all.2.1⟩, fun sends => ?_⟩
    exact absurd rfl sends

/-! ## The C library -/

/-- One part of a text that `inet_aton` reads: decimal, octal after a zero, or
hexadecimal after `0x`. -/
def readPart (text : Bytes) : Option Nat :=
  let (base, numeral) :=
    match text with
    | 48 :: 120 :: rest => (16, rest)
    | 48 :: 88 :: rest => (16, rest)
    | 48 :: _ => (8, text)
    | _ => (10, text)
  match readDigits base numeral with
  | (digit :: digits, []) => some (valueOf base (digit :: digits))
  | _ => none

/-- The parts put together: every part is an octet, but for the last, which
fills the places left. -/
def joinParts : Nat → List Nat → Option Nat
  | 0, _ => none
  | _, [] => none
  | places, [last] => if last < 256 ^ places then some last else none
  | places + 1, part :: parts =>
      if part < 256 then (joinParts places parts).map (part * 256 ^ places + ·) else none

/-- `inet_aton`, with its forms of one to four parts. -/
def classicAton (s : Str) : Option (Block 4) := do
  let text ← encodeAscii s
  let parts ← (text.splitOn dot).mapM readPart
  let value ← joinParts 4 parts
  some ⟨[value / 16777216, value / 65536, value / 256, value].map UInt8.ofNat, rfl⟩

/-- `127.1` is loopback, and so is `0x7f.1`. -/
example : classicAton [49, 50, 55, 46, 49] = some ⟨[127, 0, 0, 1], rfl⟩ ∧
    classicAton [48, 120, 55, 102, 46, 49] = some ⟨[127, 0, 0, 1], rfl⟩ := by decide

def classicInet : Inet := { standardInet with aton := classicAton }

theorem classicInet_inverse (ip : Block 16) : classicInet.pton (classicInet.ntop ip) = some ip := by
  change (parseIpv6 ((ofAscii (Ipv6Addr.text ⟨ip⟩)).map UInt8.ofNat)).map Ipv6Addr.octets = some ip
  rw [map_ofNat_ofAscii, parseIpv6_text]
  rfl

/-- The name `a` is asked for. -/
theorem name_targeted :
    ∃ sent, (after (upstreamConnect classicInet [97] 443)
        (.ofBytes (methodNone ++ []))).written = greeting ++ sent ∧
      Targets classicInet [97] 443 sent := by
  obtain ⟨sent, wrote, targets, -⟩ :=
    @targets_iff classicInet [97] classicInet_inverse (by decide) (by decide) 443 []
  have noIpv4 : classicInet.aton [97] = none := by decide
  refine ⟨sent, wrote, targets.mpr ⟨by decide, fun mistaken => ?_, ?_⟩⟩
  · exact absurd mistaken.1 (by decide)
  · rintro ⟨-, ip, parses, -⟩
    rw [noIpv4] at parses
    cases parses

/-- The domain `a` has the token `10`. -/
def numericFile : Bytes := [49, 48, 32, 97]

/-- What is asked for then is the address `0.0.0.10`. -/
theorem numeric_token_misread :
    ∃ map, loadDnsMap id numericFile = some map ∧ rewriteHost id [97] map = [49, 48] ∧
      ∃ sent, (after (upstreamConnect classicInet (rewriteHost id [97] map) 80)
          (.ofBytes (methodNone ++ []))).written = greeting ++ sent ∧
        sent = [5, 1, 0, 1, 0, 0, 0, 10, 0, 80] ∧
        ¬ Targets classicInet (rewriteHost id [97] map) 80 sent := by
  have loads : loadDnsMap id numericFile = some _ := rfl
  have standsFor : StandsFor classicInet [49, 48] (.ipv4 ⟨[0, 0, 0, 10], rfl⟩) :=
    .ipv4 (by decide) (by decide)
  refine ⟨_, loads, rfl, _, upstreamConnect_written .., by decide, fun targets => ?_⟩
  refine (standsFor.targets_requestFrame classicInet_inverse 80).mp targets ?_
  exact ⟨by decide, _, rfl, by decide⟩

end TailcatSocks.Python
