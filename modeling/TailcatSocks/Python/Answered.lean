import TailcatSocks.Python.Proxy

/-!
# What a client of the Python front end is answered

The second `try` of `_handle_inner` answers an `OSError` of the handshake with
a failure.  A `ValueError` passes it by, and the client is closed without an
answer.
-/

namespace TailcatSocks.Python

open Library Socks

/-- How a handshake with the upstream ends. -/
inductive Outcome where
  | connected
  | declined
  /-- A `ValueError` is raised. -/
  | escaped
  deriving DecidableEq, Repr

def outcomeOf {σ : Type} : EStateM.Result Raised σ Bool → Outcome
  | .ok true _ => .connected
  | .ok false _ => .declined
  | .error .osError _ => .declined
  | .error .valueError _ => .escaped

/-- What the client is sent for it. -/
def Outcome.reply : Outcome → Bytes
  | .connected => socksOkReply
  | .declined => socksFailReply
  | .escaped => []

/-! ## The request -/

variable {inet : Inet} {host : Str}

/-- The host can be put into a request. -/
structure Sendable (inet : Inet) (host : Str) : Prop where
  ascii : ∀ code ∈ host, code < 128
  noNul : 0 ∉ host
  fits : (inet.aton host).isSome = true ∨ (inet.pton host).isSome = true ∨ host.length ≤ 255

/-- The host is taken for an address, but for one of the other kind. -/
def Mistaken (inet : Inet) (host : Str) : Prop :=
  ((inet.aton host).isSome = true ∨ (inet.pton host).isSome = true) ∧
    if colon ∈ host then inet.pton host = none else inet.aton host = none

/-- The address that goes into the request for a host. -/
inductive StandsFor (inet : Inet) (host : Str) : Address → Prop where
  | ipv6 {ip : Block 16} : colon ∈ host → inet.pton host = some ip → StandsFor inet host (.ipv6 ip)
  | ipv4 {ip : Block 4} : colon ∉ host → inet.aton host = some ip → StandsFor inet host (.ipv4 ip)
  | name {name : Bytes} (short : name.length ≤ 255) : inet.aton host = none →
      encodeAscii host = some name → StandsFor inet host (.domain name short)

/-- The request as a frame. -/
def requestFrame (address : Address) (port : UInt16) : Frame :=
  ⟨version, connect, 0, address, toBeBytes port⟩

/-- What is looked at when the host can be encoded. -/
theorem looksLikeIp_eq (noNul : 0 ∉ host) :
    looksLikeIp inet host = .ok ((inet.aton host).isSome || (inet.pton host).isSome) :=
  if_neg noNul

/-- What can be sent is sent as the address that stands for it. -/
theorem upstreamRequest_standsFor (sendable : Sendable inet host)
    (notMistaken : ¬ Mistaken inet host) (port : UInt16) :
    ∃ address, StandsFor inet host address ∧
      upstreamRequest inet host port = .ok (requestFrame address port).encode := by
  obtain ⟨name, encodes⟩ := exists_encodeAscii sendable.ascii
  have size := length_of_encodeAscii encodes
  unfold upstreamRequest
  rw [encodes, looksLikeIp_eq sendable.noNul]
  cases isIp : (inet.aton host).isSome || (inet.pton host).isSome with
  | true =>
      have known := isIp
      rw [Bool.or_eq_true] at known
      simp only [bind, Except.bind, if_true]
      split
      · next inside =>
        cases parses : inet.pton host with
        | none => exact absurd ⟨known, by rw [if_pos inside, parses]⟩ notMistaken
        | some ip => exact ⟨.ipv6 ip, .ipv6 inside parses, rfl⟩
      · next outside =>
        cases parses : inet.aton host with
        | none => exact absurd ⟨known, by rw [if_neg outside, parses]⟩ notMistaken
        | some ip => exact ⟨.ipv4 ip, .ipv4 outside parses, rfl⟩
  | false =>
      have unknown := isIp
      rw [Bool.or_eq_false_iff, Option.isSome_eq_false_iff, Option.isNone_iff_eq_none] at unknown
      have short : name.length ≤ 255 := by
        rcases sendable.fits with isIpv4 | isIpv6 | short
        · rw [unknown.1] at isIpv4
          cases isIpv4
        · rw [isIpv6, Bool.or_true] at isIp
          cases isIp
        · rw [size]
          exact short
      simp only [bind, Except.bind, Bool.false_eq_true, if_false]
      rw [if_neg (Nat.not_lt.mpr short)]
      refine ⟨.domain name short, .name short unknown.1 encodes, ?_⟩
      rfl

theorem upstreamRequest_of_mistaken (sendable : Sendable inet host) (mistaken : Mistaken inet host)
    (port : UInt16) : upstreamRequest inet host port = .error .osError := by
  obtain ⟨name, encodes⟩ := exists_encodeAscii sendable.ascii
  have isIp : ((inet.aton host).isSome || (inet.pton host).isSome) = true := by
    rw [Bool.or_eq_true]
    exact mistaken.1
  have refused := mistaken.2
  unfold upstreamRequest
  rw [encodes, looksLikeIp_eq sendable.noNul, isIp]
  simp only [bind, Except.bind, if_true]
  split
  · next inside =>
    rw [if_pos inside] at refused
    rw [refused]
  · next outside =>
    rw [if_neg outside] at refused
    rw [refused]

theorem upstreamRequest_of_unsendable (unsendable : ¬ Sendable inet host) (port : UInt16) :
    upstreamRequest inet host port = .error .valueError := by
  unfold upstreamRequest
  cases encodes : encodeAscii host with
  | none => rfl
  | some name =>
      have ascii : ∀ code ∈ host, code < 128 := by
        by_contra notAscii
        rw [encodeAscii_eq_none_iff.mpr notAscii] at encodes
        cases encodes
      by_cases nul : 0 ∈ host
      · rw [looksLikeIp, if_pos nul]
        rfl
      · rw [looksLikeIp_eq nul]
        have unfit : ¬ ((inet.aton host).isSome = true ∨ (inet.pton host).isSome = true ∨
            host.length ≤ 255) := fun fits => unsendable ⟨ascii, nul, fits⟩
        rw [not_or, not_or, Bool.not_eq_true, Bool.not_eq_true, Nat.not_le] at unfit
        rw [unfit.1, unfit.2.1]
        simp only [bind, Except.bind, Bool.or_self, Bool.false_eq_true, if_false]
        rw [length_of_encodeAscii encodes, if_pos unfit.2.2]

/-- How a request is made. -/
inductive Requested (inet : Inet) (host : Str) : Except Raised Bytes → Prop where
  | unsendable : ¬ Sendable inet host → Requested inet host (.error .valueError)
  | mistaken : Sendable inet host → Mistaken inet host → Requested inet host (.error .osError)
  | made {req : Bytes} : Sendable inet host → ¬ Mistaken inet host → Requested inet host (.ok req)

theorem upstreamRequest_requested (inet : Inet) (host : Str) (port : UInt16) :
    Requested inet host (upstreamRequest inet host port) := by
  by_cases sendable : Sendable inet host
  · by_cases mistaken : Mistaken inet host
    · rw [upstreamRequest_of_mistaken sendable mistaken]
      exact .mistaken sendable mistaken
    · obtain ⟨address, -, made⟩ := upstreamRequest_standsFor sendable mistaken port
      rw [made]
      exact .made sendable mistaken
  · rw [upstreamRequest_of_unsendable sendable]
    exact .unsendable sendable

/-! ## The reply -/

/-- The bound address of a reply can be read, if it arrives. -/
def Readable (atyp : UInt8) (more : Bytes) : Prop :=
  atyp = 1 ∨ atyp = 4 ∨ atyp = 3 ∧ ∀ (name : Bytes) (short : name.length ≤ 255) (rest : Bytes),
    more = (Address.domain name short).body ++ rest → IsAscii name

/-- How a reply ends the handshake. -/
inductive Replied (tail : Bytes) : Outcome → Prop where
  | refused : (∀ reserved atyp more, tail ≠ [0x05, 0x00, reserved, atyp] ++ more) →
      Replied tail .declined
  | unreadable {reserved atyp : UInt8} {more : Bytes} :
      tail = [0x05, 0x00, reserved, atyp] ++ more → ¬ Readable atyp more → Replied tail .escaped
  | short {reserved atyp : UInt8} {more : Bytes} :
      tail = [0x05, 0x00, reserved, atyp] ++ more → Readable atyp more →
        (∀ (frame : Frame) rest, tail ≠ frame.encode ++ rest) → Replied tail .declined
  | granted {frame : Frame} {rest : Bytes} : tail = frame.encode ++ rest →
      frame.version = version → frame.code = succeeded →
        Readable frame.address.atyp (frame.address.body ++ (frame.port.1 ++ rest)) →
          Replied tail .connected

theorem outcome_readn_short {n : Nat} {unread : Bytes} (written : Bytes)
    (next : Block n → EStateM Raised Conn Bool) (short : unread.length < n) :
    outcomeOf ((readn n >>= next) ⟨unread, written, none⟩) = .declined := by
  obtain ⟨_, failed⟩ := readn_short written short
  rw [bind_of_error failed]
  rfl

theorem outcome_readn {n : Nat} (front : Block n) (rest written : Bytes)
    (next : Block n → EStateM Raised Conn Bool) :
    outcomeOf ((readn n >>= next) ⟨front.1 ++ rest, written, none⟩) =
      outcomeOf (next front ⟨rest, written, none⟩) := by
  rw [bind_of_ok (readn_front front rest written)]

/-- A stream is too short for a block, or starts with one. -/
theorem short_or_front (n : Nat) (unread : Bytes) :
    unread.length < n ∨ ∃ (front : Block n) (rest : Bytes), unread = front.1 ++ rest := by
  rcases Nat.lt_or_ge unread.length n with short | enough
  · exact .inl short
  · exact .inr ⟨⟨unread.take n, List.length_take_of_le enough⟩, unread.drop n,
      (List.take_append_drop n unread).symm⟩

theorem readable_of_text {address : Address} (text : hostText inet address = some host)
    (rest : Bytes) : Readable address.atyp (address.body ++ rest) := by
  cases address with
  | ipv4 octets => exact .inl rfl
  | ipv6 octets => exact .inr (.inl rfl)
  | domain name short =>
      refine .inr (.inr ⟨rfl, fun name' short' rest' same => ?_⟩)
      have atyp : (Address.domain name short).atyp = (Address.domain name' short').atyp := rfl
      obtain ⟨sameAddress, -⟩ := body_append_inj atyp same
      cases sameAddress
      by_contra notAscii
      rw [hostText, decodeAscii_eq_none_iff.mpr notAscii] at text
      cases text

theorem not_readable_of_no_text {address : Address} (text : hostText inet address = none)
    (rest : Bytes) : ¬ Readable address.atyp (address.body ++ rest) := by
  cases address with
  | ipv4 octets => cases text
  | ipv6 octets => cases text
  | domain name short =>
      rintro (isIpv4 | isIpv6 | ⟨-, ascii⟩)
      · cases isIpv4
      · cases isIpv6
      · exact decodeAscii_eq_none_iff.mp text (ascii name short rest rfl)

/-- A frame that grants starts with its head. -/
theorem head_of_encode {frame : Frame} {reserved atyp : UInt8} {more rest : Bytes}
    (same : [0x05, 0x00, reserved, atyp] ++ more = frame.encode ++ rest) :
    frame.address.atyp = atyp ∧ more = frame.address.body ++ (frame.port.1 ++ rest) := by
  rw [Frame.encode, List.append_assoc, List.append_assoc] at same
  obtain ⟨head, tail⟩ := List.append_inj same rfl
  simp only [Frame.head, List.cons.injEq, and_true] at head
  exact ⟨head.2.2.2.symm, tail⟩

/-- Reading the address and the port of a granting reply. -/
theorem bound_outcome (inet : Inet) (reserved atyp : UInt8) (more written : Bytes) :
    Replied ([0x05, 0x00, reserved, atyp] ++ more) (outcomeOf
      ((readAtypAddr inet atyp >>= fun _ => readn 2 >>= fun _ => pure true)
        (⟨more, written, none⟩ : Conn))) := by
  by_cases known : atyp = 1 ∨ atyp = 3 ∨ atyp = 4
  · cases reads : readAddress (fun _ => Raised.osError) (fun _ => .valueError) atyp
        ⟨more, written, none⟩ with
    | error e next =>
        obtain ⟨-, rfl⟩ := readAddress_eq_error known reads
        have absent : ∀ (address : Address) rest, address.atyp = atyp →
            more ≠ address.body ++ rest := by
          rintro address rest rfl rfl
          rw [readAddress_uncut] at reads
          cases reads
        rw [readAtypAddr_eq, bind_assoc, bind_of_error reads]
        refine .short rfl ?_ fun frame rest same => ?_
        · rcases known with isIpv4 | isDomain | isIpv6
          · exact .inl isIpv4
          · exact .inr (.inr ⟨isDomain, fun name short rest same =>
              absurd same (absent _ _ isDomain.symm)⟩)
          · exact .inr (.inl isIpv6)
        · obtain ⟨sameAtyp, sameMore⟩ := head_of_encode same
          exact absent _ _ sameAtyp sameMore
    | ok address next =>
        obtain ⟨rfl, rest, rfl, -, -⟩ := readAddress_eq_ok.mp reads
        cases text : hostText inet address with
        | none =>
            rw [bind_of_error (readAtypAddr_of_no_text text rest written)]
            exact .unreadable rfl (not_readable_of_no_text text rest)
        | some host =>
            rw [bind_of_ok (readAtypAddr_of_text text rest written)]
            have readable := readable_of_text text rest
            rcases short_or_front 2 rest with short | ⟨port, others, rfl⟩
            · rw [outcome_readn_short written _ short]
              refine .short rfl readable fun frame others same => ?_
              obtain ⟨sameAtyp, sameMore⟩ := head_of_encode same
              obtain ⟨-, rfl⟩ := body_append_inj sameAtyp.symm sameMore
              rw [List.length_append, frame.port.2] at short
              omega
            · rw [outcome_readn]
              have whole :
                  [0x05, 0x00, reserved, address.atyp] ++ (address.body ++ (port.1 ++ others)) =
                  (Frame.mk version succeeded reserved address port).encode ++ others := by
                rw [Frame.encode, List.append_assoc, List.append_assoc]
                rfl
              exact .granted whole rfl rfl readable
  · simp only [not_or] at known
    obtain ⟨notIpv4, notDomain, notIpv6⟩ := known
    rw [readAtypAddr_eq, readAddress_unsupported notIpv4 notDomain notIpv6]
    refine .unreadable rfl ?_
    rintro (isIpv4 | isIpv6 | ⟨isDomain, -⟩)
    · exact notIpv4 isIpv4
    · exact notIpv6 isIpv6
    · exact notDomain isDomain

theorem upstreamReply_replied (inet : Inet) (tail written : Bytes) :
    Replied tail (outcomeOf (upstreamReply inet ⟨tail, written, none⟩)) := by
  unfold upstreamReply
  rcases short_or_front 4 tail with short | ⟨head, more, rfl⟩
  · rw [outcome_readn_short written _ short]
    refine .refused fun reserved atyp more same => ?_
    rw [same, List.length_append] at short
    change 4 + more.length < 4 at short
    omega
  · rw [outcome_readn]
    have bytes := block_four head
    split
    · next refuses =>
      refine .refused fun reserved atyp more' same => ?_
      have front := List.append_inj_left same head.2
      rw [bytes] at front
      simp only [List.cons.injEq] at front
      exact refuses.elim (· front.1) (· front.2.1)
    · next grants =>
      simp only [not_or, not_not] at grants
      rw [bytes, grants.1, grants.2]
      exact bound_outcome inet _ _ more written

/-- Every granting head of a reply has a bound address that can be read. -/
def AllReadable (tail : Bytes) : Prop :=
  ∀ reserved atyp more, tail = [0x05, 0x00, reserved, atyp] ++ more → Readable atyp more

theorem allReadable_of_head {reserved atyp : UInt8} {more : Bytes} (readable : Readable atyp more) :
    AllReadable ([0x05, 0x00, reserved, atyp] ++ more) := by
  intro reserved' atyp' more' same
  simp only [List.cons_append, List.nil_append, List.cons.injEq, true_and] at same
  obtain ⟨-, rfl, rfl⟩ := same
  exact readable

/-- A frame that grants, as its head and what follows. -/
theorem encode_of_grants {frame : Frame} (isVersion : frame.version = version)
    (grants : frame.code = succeeded) (rest : Bytes) :
    frame.encode ++ rest = [0x05, 0x00, frame.reserved, frame.address.atyp] ++
      (frame.address.body ++ (frame.port.1 ++ rest)) := by
  rw [Frame.encode, Frame.head, isVersion, grants, List.append_assoc, List.append_assoc]
  rfl

theorem Replied.escaped_iff {tail : Bytes} {outcome : Outcome} (replied : Replied tail outcome) :
    outcome = .escaped ↔ ¬ AllReadable tail := by
  cases replied with
  | refused noHead =>
      exact iff_of_false (by simp) (not_not.mpr fun _ _ _ same => absurd same (noHead _ _ _))
  | unreadable starts unreadable => exact iff_of_true rfl fun all => unreadable (all _ _ _ starts)
  | short starts readable _ =>
      refine iff_of_false (by simp) (not_not.mpr ?_)
      rw [starts]
      exact allReadable_of_head readable
  | granted starts isVersion grants readable =>
      refine iff_of_false (by simp) (not_not.mpr ?_)
      rw [starts, encode_of_grants isVersion grants]
      exact allReadable_of_head readable

theorem Replied.connected_iff {tail : Bytes} {outcome : Outcome} (replied : Replied tail outcome)
    (all : AllReadable tail) :
    outcome = .connected ↔ ∃ (frame : Frame) (rest : Bytes), tail = frame.encode ++ rest ∧
      frame.version = version ∧ frame.code = succeeded := by
  cases replied with
  | refused noHead =>
      refine iff_of_false (by simp) ?_
      rintro ⟨frame, rest, whole, isVersion, grants⟩
      rw [encode_of_grants isVersion grants] at whole
      exact noHead _ _ _ whole
  | unreadable starts unreadable => exact absurd (all _ _ _ starts) unreadable
  | short _ _ noFrame =>
      exact iff_of_false (by simp) fun ⟨frame, rest, whole, _⟩ => noFrame frame rest whole
  | granted whole isVersion grants _ => exact iff_of_true rfl ⟨_, _, whole, isVersion, grants⟩

/-! ## The handshake -/

/-- The handshake completes: the upstream accepts the greeting, a request is
made, and it is granted. -/
def Completes (inet : Inet) (host : Str) (port : UInt16) (answer : Bytes) : Prop :=
  (∃ req, upstreamRequest inet host port = .ok req) ∧ ∃ (frame : Frame) (rest : Bytes),
    answer = methodNone ++ (frame.encode ++ rest) ∧ frame.version = version ∧
      frame.code = succeeded

/-- No step of the handshake raises a `ValueError`: once the greeting is accepted
the host can be sent, and then a granting reply can be read. -/
def Survives (inet : Inet) (host : Str) (answer : Bytes) : Prop :=
  ∀ tail, answer = methodNone ++ tail →
    Sendable inet host ∧ (¬ Mistaken inet host → AllReadable tail)

theorem sendall_uncut (bytes unread written : Bytes) :
    sendall bytes ⟨unread, written, none⟩ = .ok () ⟨unread, written ++ bytes, none⟩ := by
  rw [sendall, writeAll_uncut _ _ _ rfl, Conn.advance_of_uncut rfl]

/-- Without an accepted greeting nothing is requested. -/
theorem outcome_of_not_greeted (port : UInt16) {answer : Bytes}
    (refused : ¬ methodNone <+: answer) :
    outcomeOf (upstreamConnect inet host port (.ofBytes answer)) = .declined := by
  unfold upstreamConnect Conn.ofBytes
  rw [bind_of_ok (sendall_uncut _ answer [])]
  rcases short_or_front 2 answer with short | ⟨resp, rest, rfl⟩
  · exact outcome_readn_short _ _ short
  · rw [outcome_readn]
    split
    · rfl
    · next accepts =>
      simp only [not_or, not_not] at accepts
      have two : resp.1 = [resp.get 0, resp.get 1] := resp.eq_ofFn
      rw [two, accepts.1, accepts.2] at refused
      exact absurd (List.prefix_append _ rest) refused

/-- After an accepted greeting the request is made, or raises. -/
theorem outcome_of_greeted (inet : Inet) (host : Str) (port : UInt16) (tail : Bytes) :
    outcomeOf (upstreamConnect inet host port (.ofBytes (methodNone ++ tail))) =
      match upstreamRequest inet host port with
      | .error .osError => .declined
      | .error .valueError => .escaped
      | .ok req => outcomeOf (upstreamReply inet ⟨tail, [] ++ greeting ++ req, none⟩) := by
  unfold upstreamConnect Conn.ofBytes
  rw [bind_of_ok (sendall_uncut _ _ [])]
  have front := outcome_readn (⟨methodNone, rfl⟩ : Block 2) tail ([] ++ [0x05, 0x01, 0x00])
  rw [front, if_neg (by decide)]
  cases upstreamRequest inet host port with
  | error e => cases e <;> rfl
  | ok req =>
      change outcomeOf ((sendall req >>= fun _ => upstreamReply inet) _) = _
      rw [bind_of_ok (sendall_uncut ..)]
      rfl

theorem survives_iff (tail : Bytes) :
    Survives inet host (methodNone ++ tail) ↔
      Sendable inet host ∧ (¬ Mistaken inet host → AllReadable tail) := by
  constructor
  · exact fun survives => survives tail rfl
  · intro both tail' same
    rw [List.append_cancel_left same.symm]
    exact both

theorem survives_of_not_greeted {answer : Bytes} (refused : ¬ methodNone <+: answer) :
    Survives inet host answer :=
  fun tail same => absurd ⟨tail, same.symm⟩ refused

/-- The handshake raises a `ValueError` exactly when what it meets does not let
it survive, and else completes exactly when the upstream grants the request. -/
theorem outcome_iff (inet : Inet) (host : Str) (port : UInt16) (answer : Bytes) :
    (outcomeOf (upstreamConnect inet host port (.ofBytes answer)) = .escaped ↔
        ¬ Survives inet host answer) ∧
      (Survives inet host answer →
        (outcomeOf (upstreamConnect inet host port (.ofBytes answer)) = .connected ↔
          Completes inet host port answer)) := by
  by_cases greeted : methodNone <+: answer
  · obtain ⟨tail, rfl⟩ := greeted
    have requested := upstreamRequest_requested inet host port
    rw [outcome_of_greeted, survives_iff, Completes]
    generalize upstreamRequest inet host port = request at requested
    cases requested with
    | unsendable notSendable =>
        exact ⟨iff_of_true rfl fun survives => notSendable survives.1,
          fun survives => absurd survives.1 notSendable⟩
    | mistaken sendable mistaken =>
        refine ⟨iff_of_false (by simp) (not_not.mpr ⟨sendable, absurd mistaken⟩), fun _ => ?_⟩
        exact iff_of_false (by simp) fun ⟨⟨_, made⟩, _⟩ => by cases made
    | @made req sendable notMistaken =>
        have replied := upstreamReply_replied inet tail ([] ++ greeting ++ req)
        refine ⟨replied.escaped_iff.trans (not_congr ?_), fun survives => ?_⟩
        · exact ⟨fun all => ⟨sendable, fun _ => all⟩, fun survives => survives.2 notMistaken⟩
        · refine (replied.connected_iff (survives.2 notMistaken)).trans ?_
          constructor
          · rintro ⟨frame, rest, rfl, grants⟩
            exact ⟨⟨req, rfl⟩, frame, rest, rfl, grants⟩
          · rintro ⟨-, frame, rest, same, grants⟩
            exact ⟨frame, rest, List.append_cancel_left same, grants⟩
  · rw [outcome_of_not_greeted port greeted]
    refine ⟨iff_of_false (by simp) (not_not.mpr (survives_of_not_greeted greeted)), fun _ => ?_⟩
    refine iff_of_false (by simp) ?_
    rintro ⟨-, frame, rest, rfl, -⟩
    exact greeted (List.prefix_append _ _)

/-! ## The whole exchange -/

theorem greet_of_offered {greeting : Greeting} (offers : greeting.OffersNone) (rest : Bytes) :
    greet (.ofBytes (greeting.encode ++ rest)) = .ok true ⟨rest, methodNone, none⟩ := by
  have readVersion : readn 1 (.ofBytes (greeting.encode ++ rest)) =
      .ok ⟨[0x05], rfl⟩ ⟨[greeting.count] ++ (greeting.methods ++ rest), [], none⟩ :=
    readn_front (⟨[0x05], rfl⟩ : Block 1) _ []
  have readCount := readn_front (⟨[greeting.count], rfl⟩ : Block 1) (greeting.methods ++ rest) []
  have readMethods : readn (Block.get (⟨[greeting.count], rfl⟩ : Block 1) 0).toNat
      ⟨greeting.methods ++ rest, [], none⟩ =
        .ok ⟨greeting.methods, greeting.toNat_count.symm⟩ ⟨rest, [], none⟩ :=
    readn_front
      (⟨greeting.methods, greeting.toNat_count.symm⟩ : Block greeting.count.toNat) rest []
  unfold greet
  rw [bind_of_ok readVersion, if_neg (by decide), bind_of_ok readCount]
  rw [bind_of_ok readMethods, if_pos (show 0x00 ∈ greeting.methods from offers),
    bind_of_ok (sendall_uncut ..)]
  rfl

theorem readRequest_of_frame {frame : Frame} (text : hostText inet frame.address = some host)
    (rest written : Bytes) :
    readRequest inet ⟨frame.encode ++ rest, written, none⟩ =
      .ok (frame.code, host, fromBeBytes frame.port) ⟨rest, written, none⟩ := by
  have readHead := readn_front frame.head (frame.address.body ++ (frame.port.1 ++ rest)) written
  unfold readRequest
  rw [Frame.encode, List.append_assoc, List.append_assoc, bind_of_ok readHead]
  change (readAtypAddr inet frame.address.atyp >>= _) _ = _
  rw [bind_of_ok (readAtypAddr_of_text text ..), bind_of_ok (readn_front frame.port rest written)]
  rfl

theorem onClient_sendall (rest written reply : Bytes) (upstream : Conn)
    (dialFault : Option Fault) (dialled : Bool) :
    onClient (sendall reply) ⟨⟨rest, written, none⟩, upstream, dialFault, dialled⟩ =
      .ok () ⟨⟨rest, written ++ reply, none⟩, upstream, dialFault, dialled⟩ := reply_written ..

/-- The state in which the upstream is opened. -/
abbrev accepted (rest : Bytes) (upstream : Conn) (dialFault : Option Fault) : World :=
  ⟨⟨rest, methodNone, none⟩, upstream, dialFault, false⟩

section Exchange

variable (table : Str → Str) (dnsMap : Mapping) (upstream : Conn) (dialFault : Option Fault)

theorem handleInner_of_request {greeting : Greeting} {frame : Frame}
    (offers : greeting.OffersNone) (text : hostText inet frame.address = some host) (rest : Bytes) :
    handleInner inet table dnsMap
        (.start (greeting.encode ++ (frame.encode ++ rest)) dialFault upstream) =
      answer inet table dnsMap frame.code host (fromBeBytes frame.port)
        (accepted rest upstream dialFault) := by
  unfold handleInner World.start
  rw [bind_of_ok (onClient_of_ok (greet_of_offered offers _) ..)]
  change (onClient (readRequest inet) >>= _) _ = _
  rw [bind_of_ok (onClient_of_ok (readRequest_of_frame text rest methodNone) ..)]

theorem openUpstream_of_fault (rest : Bytes) (fault : Fault) :
    openUpstream (accepted rest upstream (some fault)) =
      .ok false ⟨⟨rest, methodNone ++ socksFailReply, none⟩, upstream, some fault, true⟩ := by
  have failed :=
    dial_of_fault (w := accepted rest upstream (some fault)) (fun _ => Raised.osError) rfl
  unfold openUpstream
  rw [exceptOsError_of_osError (bind_of_error failed)]
  exact bind_of_ok (onClient_sendall ..)

/-- What the second `try` sends, by the end of the handshake. -/
theorem connectUpstream_sends (inet : Inet) (host : Str) (port : UInt16) (rest : Bytes)
    (dialled : Bool) :
    ∃ upstream', connectUpstream inet host port
        ⟨⟨rest, methodNone, none⟩, upstream, dialFault, dialled⟩ =
      match outcomeOf (upstreamConnect inet host port upstream) with
      | .connected => .ok true ⟨⟨rest, methodNone, none⟩, upstream', dialFault, dialled⟩
      | .declined =>
          .ok false ⟨⟨rest, methodNone ++ socksFailReply, none⟩, upstream', dialFault, dialled⟩
      | .escaped =>
          .error .valueError ⟨⟨rest, methodNone, none⟩, upstream', dialFault, dialled⟩ := by
  unfold connectUpstream
  cases connects : upstreamConnect inet host port upstream with
  | ok goesOn upstream' =>
      have done : onUpstream (upstreamConnect inet host port)
          ⟨⟨rest, methodNone, none⟩, upstream, dialFault, dialled⟩ =
        .ok goesOn ⟨⟨rest, methodNone, none⟩, upstream', dialFault, dialled⟩ :=
          onPart_of_ok connects
      refine ⟨upstream', ?_⟩
      cases goesOn with
      | true => exact exceptOsError_of_ok (bind_of_ok done)
      | false =>
          exact exceptOsError_of_ok ((bind_of_ok done).trans (bind_of_ok (onClient_sendall ..)))
  | error e upstream' =>
      have failed : onUpstream (upstreamConnect inet host port)
          ⟨⟨rest, methodNone, none⟩, upstream, dialFault, dialled⟩ =
        .error e ⟨⟨rest, methodNone, none⟩, upstream', dialFault, dialled⟩ :=
          onPart_of_error connects
      refine ⟨upstream', ?_⟩
      cases e with
      | osError =>
          rw [exceptOsError_of_osError (bind_of_error failed)]
          exact bind_of_ok (onClient_sendall ..)
      | valueError => exact exceptOsError_of_valueError (bind_of_error failed)

/-- What a request to connect is answered, by the end of the handshake. -/
theorem written_of_request {greeting : Greeting} {frame : Frame} (offers : greeting.OffersNone)
    (asks : frame.code = connect) (text : hostText inet frame.address = some host) (rest : Bytes) :
    (handle inet table dnsMap
        (.start (greeting.encode ++ (frame.encode ++ rest)) dialFault upstream)).2.client.written =
      methodNone ++
        if dialFault = none then
          (outcomeOf (upstreamConnect inet (rewriteHost table host dnsMap) (fromBeBytes frame.port)
            upstream)).reply
        else socksFailReply := by
  rw [handle, handleInner_of_request table dnsMap upstream dialFault offers text, answer,
    if_neg (show ¬ frame.code ≠ 0x01 from not_not.mpr asks)]
  cases dialFault with
  | some fault =>
      rw [bind_of_ok (openUpstream_of_fault upstream rest fault)]
      rfl
  | none =>
      have opened : openUpstream (accepted rest upstream none) =
          .ok true ⟨⟨rest, methodNone, none⟩, upstream, none, true⟩ := rfl
      obtain ⟨upstream', sends⟩ := connectUpstream_sends upstream none inet
        (rewriteHost table host dnsMap) (fromBeBytes frame.port) rest true
      rw [bind_of_ok opened, if_pos rfl, if_pos rfl]
      cases ends : outcomeOf (upstreamConnect inet (rewriteHost table host dnsMap)
          (fromBeBytes frame.port) upstream) with
      | connected =>
          rw [ends] at sends
          rw [bind_of_ok sends]
          change (recover _ ((onClient (sendall socksOkReply) >>= _) _)).2.client.written = _
          rw [bind_of_ok (onClient_sendall ..)]
          rfl
      | declined =>
          rw [ends] at sends
          rw [bind_of_ok sends]
          rfl
      | escaped =>
          rw [ends] at sends
          rw [bind_of_error sends]
          exact (List.append_nil _).symm

/-- One reply follows the method: success when the handshake completed, failure
when it did not. -/
def AnsweredOnce (written : Bytes) (completed : Prop) : Prop :=
  (completed → written = methodNone ++ socksOkReply) ∧
    (¬ completed → written = methodNone ++ socksFailReply)

/-- A request to connect is answered once exactly when dialling fails or the
handshake raises no `ValueError`. -/
theorem answered_iff {greeting : Greeting} {frame : Frame} (offers : greeting.OffersNone)
    (asks : frame.code = connect) (text : hostText inet frame.address = some host)
    (rest upstreamBytes : Bytes) :
    AnsweredOnce
        (handle inet table dnsMap (.start (greeting.encode ++ (frame.encode ++ rest)) dialFault
          (.ofBytes upstreamBytes))).2.client.written
        (dialFault = none ∧ Completes inet (rewriteHost table host dnsMap)
          (fromBeBytes frame.port) upstreamBytes) ↔
      (dialFault = none → Survives inet (rewriteHost table host dnsMap) upstreamBytes) := by
  rw [written_of_request table dnsMap _ dialFault offers asks text]
  cases dialFault with
  | some fault =>
      refine iff_of_true ⟨fun completed => absurd completed.1 (by simp), fun _ => rfl⟩
        fun dials => ?_
      cases dials
  | none =>
      obtain ⟨escaped, connected⟩ := outcome_iff inet (rewriteHost table host dnsMap)
        (fromBeBytes frame.port) upstreamBytes
      rw [if_pos rfl]
      cases ends : outcomeOf (upstreamConnect inet (rewriteHost table host dnsMap)
          (fromBeBytes frame.port) (.ofBytes upstreamBytes)) with
      | connected =>
          rw [ends] at escaped connected
          have survives := not_not.mp (mt escaped.mpr (by simp))
          have completes := (connected survives).mp rfl
          exact iff_of_true ⟨fun _ => rfl, absurd ⟨rfl, completes⟩⟩ fun _ => survives
      | declined =>
          rw [ends] at escaped connected
          have survives := not_not.mp (mt escaped.mpr (by simp))
          have incomplete := mt (connected survives).mpr (by simp)
          exact iff_of_true ⟨fun completed => absurd completed.2 incomplete, fun _ => rfl⟩
            fun _ => survives
      | escaped =>
          rw [ends] at escaped
          refine iff_of_false (fun answered => ?_) fun survives => escaped.mp rfl (survives rfl)
          by_cases completed : (none : Option Fault) = none ∧ Completes inet
              (rewriteHost table host dnsMap) (fromBeBytes frame.port) upstreamBytes
          · exact absurd (answered.1 completed) (by decide)
          · exact absurd (answered.2 completed) (by decide)

end Exchange

/-- A library that takes the addresses of the standard form alone. -/
def standardInet : Inet where
  aton s := (parseIpv4 (s.map UInt8.ofNat)).map Ipv4Addr.octets
  pton s := (parseIpv6 (s.map UInt8.ofNat)).map Ipv6Addr.octets
  ntop ip := ofAscii (Ipv6Addr.text ⟨ip⟩)

/-- A request to connect to `a`. -/
def connectToA : Frame := ⟨5, 1, 0, .domain [97] (by decide), ⟨[1, 187], rfl⟩⟩

def noAuth : Greeting := ⟨[0], by decide⟩

/-- The upstream closes before it answers. -/
theorem answered_of_closed :
    AnsweredOnce
      (handle standardInet id ∅ (.start (noAuth.encode ++ (connectToA.encode ++ [])) none
        (.ofBytes []))).2.client.written
      ((none : Option Fault) = none ∧ Completes standardInet (rewriteHost id [97] ∅)
        (fromBeBytes connectToA.port) []) :=
  (answered_iff id ∅ none (by decide) (by decide) rfl [] []).mpr fun _ tail same => by cases same

/-- The domain `a` has a token that is not ASCII. -/
def accentedFile : Bytes := [195, 169, 32, 97]

/-- Then nothing is answered once the upstream accepts the greeting. -/
theorem unanswered_of_accented_token :
    ∃ map, loadDnsMap id accentedFile = some map ∧ ∀ completed, ¬ AnsweredOnce
      (handle standardInet id map (.start (noAuth.encode ++ (connectToA.encode ++ [])) none
        (.ofBytes [0x05, 0x00]))).2.client.written completed := by
  have loads : loadDnsMap id accentedFile = some _ := rfl
  refine ⟨_, loads, fun completed answered => ?_⟩
  by_cases done : completed
  · exact absurd (answered.1 done) (by decide)
  · exact absurd (answered.2 done) (by decide)

end TailcatSocks.Python
