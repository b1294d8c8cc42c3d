import TailcatSocks.Go.Proxy

/-!
# The Go request and its reader

`socksConnectRequest` is compared with `readATYPAddr` over every continuation of
the stream.  A name that does not fit its length byte is refused before
anything is dialled; every other host is read back.
-/

namespace TailcatSocks.Go

open Library Socks

/-- The parts of a request, one read after the other. -/
def readBack : EStateM SocksError Conn (Block 3 × Bytes × UInt16) := do
  let head ← readFull 3
  let atyp ← readFull 1
  let host ← readATYPAddr (atyp.get 0)
  let pb ← readFull 2
  pure (head, host, portOf pb)

/-- The start of every request: version, command, and a reserved byte. -/
def requestHead : Block 3 := ⟨[0x05, 0x01, 0x00], rfl⟩

/-- Two texts name the same target: the same IP address, or the same bytes. -/
def SameTarget (host target : Bytes) : Prop :=
  match parseIP host with
  | some ip => parseIP target = some ip
  | none => target = host

/-- The address that stands for a host, if there is one. -/
def requestAddress (host : Bytes) : Option Address :=
  match parseIP host with
  | some ip =>
      match to4 ip with
      | some ip4 => some (.ipv4 ip4)
      | none => some (.ipv6 ip)
  | none => if short : host.length ≤ 255 then some (.domain host short) else none

theorem requestAddress_eq_none_iff (host : Bytes) :
    requestAddress host = none ↔ parseIP host = none ∧ 255 < host.length := by
  unfold requestAddress
  cases parses : parseIP host with
  | some ip => cases short : to4 ip <;> simp [short]
  | none => simp

/-- The encoder writes a frame for the address, or refuses the host. -/
theorem socksConnectRequest_eq_requestAddress (host : Bytes) (port : UInt16) :
    socksConnectRequest host port =
      match requestAddress host with
      | some address => .ok (requestHead.1 ++ (address.atyp :: address.body) ++ portBytes port)
      | none => .error (.nameTooLong host) := by
  unfold socksConnectRequest requestAddress
  cases parses : parseIP host with
  | some ip =>
      cases short : to4 ip with
      | some ip4 => simp only [short]; rfl
      | none => simp only [short]; rfl
  | none =>
      by_cases short : host.length ≤ 255
      · simp only [if_neg (Nat.not_lt.mpr short), dif_pos short]
        rfl
      · simp only [if_pos (Nat.not_le.mp short), dif_neg short]
        rfl

/-- The text of the address that stands for a host names the same target. -/
theorem sameTarget_hostText {host : Bytes} {address : Address}
    (stands : requestAddress host = some address) : SameTarget host (hostText address) := by
  unfold requestAddress at stands
  unfold SameTarget
  cases parses : parseIP host with
  | some ip =>
      simp only [parses] at stands ⊢
      cases short : to4 ip with
      | some ip4 =>
          simp only [short, Option.some.injEq] at stands
          subst stands
          rw [hostText, ipv4String, parseIP, parseIpv4_text, Option.some.injEq]
          exact v4InV6_of_to4 short
      | none =>
          simp only [short, Option.some.injEq] at stands
          subst stands
          rw [hostText, ipv6String, short, parseIP, parseIpv4_ipv6_text, parseIpv6_text]
          rfl
  | none =>
      simp only [parses] at stands ⊢
      split at stands
      · cases stands
        rfl
      · cases stands

/-- What was encoded is read back, and the rest of the stream is left. -/
theorem readBack_encoded (address : Address) (port : UInt16) (rest : Bytes) :
    readBack
        (.ofBytes (requestHead.1 ++ (address.atyp :: address.body) ++ portBytes port ++ rest)) =
      .ok (requestHead, hostText address, port) (.ofBytes rest) := by
  have readAtyp : readExact SocksError.io 1
        (.ofBytes ([address.atyp] ++ (address.body ++ ((toBeBytes port).1 ++ rest)))) =
      .ok ⟨[address.atyp], rfl⟩ (.ofBytes (address.body ++ ((toBeBytes port).1 ++ rest))) :=
    readExact_ofBytes SocksError.io (⟨[address.atyp], rfl⟩ : Block 1) _
  have readHost : readATYPAddr address.atyp
        (.ofBytes (address.body ++ ((toBeBytes port).1 ++ rest))) =
      .ok (hostText address) (.ofBytes ((toBeBytes port).1 ++ rest)) := by
    rw [readATYPAddr_eq]
    exact map_of_ok hostText (readAddress_ofBytes address _)
  have encoded : requestHead.1 ++ (address.atyp :: address.body) ++ portBytes port ++ rest =
      requestHead.1 ++ ([address.atyp] ++ (address.body ++ ((toBeBytes port).1 ++ rest))) := by
    rw [portBytes_eq]
    simp only [List.append_assoc, List.cons_append, List.nil_append]
  rw [encoded]
  unfold readBack readFull
  rw [bind_of_ok (readExact_ofBytes _ requestHead _), bind_of_ok readAtyp]
  change (readATYPAddr address.atyp >>= _) _ = _
  rw [bind_of_ok readHost, bind_of_ok (readExact_ofBytes _ (toBeBytes port) rest), portOf_eq,
    fromBeBytes_toBeBytes]
  rfl

/-- A host is refused exactly when it is no IP address and too long for a name,
and then nothing is dialled or sent; any other host is read back from its
encoding, whatever follows in the stream. -/
theorem socksConnectRequest_reads_back (host : Bytes) (port : UInt16) :
    ((∃ e, socksConnectRequest host port = .error e) ↔ parseIP host = none ∧ 255 < host.length) ∧
      (∀ e, socksConnectRequest host port = .error e →
        ∀ w, dialUpstream host port w = .error e w) ∧
      ∀ request, socksConnectRequest host port = .ok request → ∀ rest, ∃ target,
        readBack (.ofBytes (request ++ rest)) = .ok (requestHead, target, port) (.ofBytes rest) ∧
          SameTarget host target := by
  refine ⟨?_, ?_, ?_⟩
  · rw [← requestAddress_eq_none_iff, socksConnectRequest_eq_requestAddress]
    cases requestAddress host <;> simp
  · intro e refused w
    rw [dialUpstream, refused]
    rfl
  · intro request encodes rest
    rw [socksConnectRequest_eq_requestAddress] at encodes
    cases stands : requestAddress host with
    | none =>
        rw [stands] at encodes
        cases encodes
    | some address =>
        rw [stands] at encodes
        cases encodes
        exact ⟨hostText address, readBack_encoded address port rest, sameTarget_hostText stands⟩

/-- The IPv4-mapped address of `127.0.0.1` goes out as an IPv4 address. -/
example : socksConnectRequest
      [58, 58, 102, 102, 102, 102, 58, 49, 50, 55, 46, 48, 46, 48, 46, 49] 80 =
    .ok [5, 1, 0, 1, 127, 0, 0, 1, 0, 80] := by decide +kernel

end TailcatSocks.Go
