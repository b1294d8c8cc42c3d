import TailcatSocks.Go.Proxy
import TailcatSocks.Go.Relay

/-!
# A whole Go session

The relay starts from the two connections that the handshakes leave: what they
have not read of either stream is what the two copies read.
-/

namespace TailcatSocks.Go

open Library Socks

/-- `relay` as `serveConn` calls it. -/
def relayOf (w : World) : Relay := .start w.client.unread w.upstream.unread

/-- What has been written to the upstream, before the relay and in it. -/
def toUpstream (w : World) (s : Relay) : Bytes := w.upstream.written ++ (s.copies .client).sent

/-- What has been written to the client, before the relay and in it. -/
def toClient (w : World) (s : Relay) : Bytes := w.client.written ++ (s.copies .upstream).sent

variable {lower : Nat → Nat} {dnsMap : Mapping} {greeting : Greeting} {request reply : Frame}
  {req : Bytes}

theorem readFull_front {count : Nat} (front : Block count) (rest written : Bytes) :
    readFull count ⟨front.1 ++ rest, written, none⟩ = .ok front ⟨rest, written, none⟩ :=
  readExact_uncut SocksError.io front rest written

theorem write_uncut (bytes unread written : Bytes) :
    write bytes ⟨unread, written, none⟩ = .ok () ⟨unread, written ++ bytes, none⟩ := by
  rw [write, writeAll_uncut _ _ _ rfl, Conn.advance_of_uncut rfl]

theorem readATYPAddr_uncut (address : Address) (rest written : Bytes) :
    readATYPAddr address.atyp ⟨address.body ++ rest, written, none⟩ =
      .ok (hostText address) ⟨rest, written, none⟩ := by
  rw [readATYPAddr_eq, map_of_ok hostText (readAddress_uncut address rest written)]

theorem greet_of_offered (offers : greeting.OffersNone) (rest : Bytes) :
    greet (.ofBytes (greeting.encode ++ rest)) = .ok true ⟨rest, methodNone, none⟩ := by
  have readVersion : readFull 1 (.ofBytes (greeting.encode ++ rest)) =
      .ok ⟨[0x05], rfl⟩ ⟨[greeting.count] ++ (greeting.methods ++ rest), [], none⟩ :=
    readFull_front (⟨[0x05], rfl⟩ : Block 1) _ []
  have readCount := readFull_front (⟨[greeting.count], rfl⟩ : Block 1) (greeting.methods ++ rest) []
  have readMethods : readFull (Block.get (⟨[greeting.count], rfl⟩ : Block 1) 0).toNat
      ⟨greeting.methods ++ rest, [], none⟩ =
        .ok ⟨greeting.methods, greeting.toNat_count.symm⟩ ⟨rest, [], none⟩ :=
    readFull_front
      (⟨greeting.methods, greeting.toNat_count.symm⟩ : Block greeting.count.toNat) rest []
  have noAuth : (greeting.methods.any fun m => m == 0x00) = true :=
    List.any_eq_true.mpr ⟨0, offers, rfl⟩
  unfold greet
  rw [bind_of_ok readVersion, if_neg (by decide), bind_of_ok readCount, bind_of_ok readMethods]
  dsimp only
  rw [if_neg (not_not.mpr noAuth), bind_of_ok (write_uncut ..)]
  rfl

theorem readRequest_of_frame (request : Frame) (rest written : Bytes) :
    readRequest ⟨request.encode ++ rest, written, none⟩ =
      .ok (request.code, hostText request.address, fromBeBytes request.port)
        ⟨rest, written, none⟩ := by
  have readHead := readFull_front request.head
    (request.address.body ++ (request.port.1 ++ rest)) written
  unfold readRequest
  rw [Frame.encode, List.append_assoc, List.append_assoc, bind_of_ok readHead]
  change (readATYPAddr request.address.atyp >>= _) _ = _
  rw [bind_of_ok (readATYPAddr_uncut ..), bind_of_ok (readFull_front request.port rest written),
    ← portOf_eq]
  rfl

theorem socksClientConnect_of_granted (req : Bytes)
    (grants : reply.version = version ∧ reply.code = succeeded) (answered : Bytes) :
    socksClientConnect req (.ofBytes (methodNone ++ (reply.encode ++ answered))) =
      .ok () ⟨answered, Socks.greeting ++ req, none⟩ := by
  have readMethod := readFull_front (⟨methodNone, rfl⟩ : Block 2) (reply.encode ++ answered)
    Socks.greeting
  have readHead := readFull_front reply.head (reply.address.body ++ (reply.port.1 ++ answered))
    (Socks.greeting ++ req)
  have accepted : ¬ (reply.head.get 0 ≠ 0x05 ∨ reply.head.get 1 ≠ 0x00) := by
    rw [not_or, ne_eq, ne_eq, not_not, not_not]
    exact grants
  unfold socksClientConnect Conn.ofBytes
  rw [bind_of_ok (write_uncut _ _ [])]
  change (readFull 2 >>= _) ⟨methodNone ++ (reply.encode ++ answered), Socks.greeting, none⟩ = _
  rw [bind_of_ok readMethod, if_neg (by decide), bind_of_ok (write_uncut ..), Frame.encode,
    List.append_assoc, List.append_assoc, bind_of_ok readHead, if_neg accepted]
  change (readATYPAddr reply.address.atyp >>= _) _ = _
  rw [bind_of_ok (readATYPAddr_uncut ..), bind_of_ok (readFull_front reply.port ..)]
  rfl

/-- The connections that the handshakes leave to the relay. -/
theorem handle_of_granted (lower : Nat → Nat) (dnsMap : Mapping) (offers : greeting.OffersNone)
    (asks : request.code = connect)
    (made : socksConnectRequest (rewriteHost lower (hostText request.address) dnsMap)
      (fromBeBytes request.port) = .ok req)
    (grants : reply.version = version ∧ reply.code = succeeded) (payload answered : Bytes) :
    handle lower dnsMap (.start (greeting.encode ++ (request.encode ++ payload)) none
        (.ofBytes (methodNone ++ (reply.encode ++ answered)))) =
      (.relay, ⟨⟨payload, methodNone ++ socksOKReply, none⟩,
        ⟨answered, Socks.greeting ++ req, none⟩, none, true⟩) := by
  have greets : onClient greet (.start (greeting.encode ++ (request.encode ++ payload)) none
      (.ofBytes (methodNone ++ (reply.encode ++ answered)))) =
        .ok true ⟨⟨request.encode ++ payload, methodNone, none⟩,
          .ofBytes (methodNone ++ (reply.encode ++ answered)), none, false⟩ :=
    onClient_of_ok (greet_of_offered offers _) _ _ _
  have reads : onClient readRequest ⟨⟨request.encode ++ payload, methodNone, none⟩,
      .ofBytes (methodNone ++ (reply.encode ++ answered)), none, false⟩ =
        .ok (request.code, hostText request.address, fromBeBytes request.port)
          ⟨⟨payload, methodNone, none⟩, .ofBytes (methodNone ++ (reply.encode ++ answered)), none,
            false⟩ :=
    onClient_of_ok (readRequest_of_frame request payload methodNone) _ _ _
  have dials : dial SocksError.io ⟨⟨payload, methodNone, none⟩,
      .ofBytes (methodNone ++ (reply.encode ++ answered)), none, false⟩ =
        .ok () ⟨⟨payload, methodNone, none⟩, .ofBytes (methodNone ++ (reply.encode ++ answered)),
          none, true⟩ := rfl
  have connects : dialUpstream (rewriteHost lower (hostText request.address) dnsMap)
      (fromBeBytes request.port) ⟨⟨payload, methodNone, none⟩,
        .ofBytes (methodNone ++ (reply.encode ++ answered)), none, false⟩ =
      .ok ()
        ⟨⟨payload, methodNone, none⟩, ⟨answered, Socks.greeting ++ req, none⟩, none, true⟩ := by
    unfold dialUpstream
    rw [made]
    change (dial SocksError.io >>= _) _ = _
    rw [bind_of_ok dials]
    exact onPart_of_ok (socksClientConnect_of_granted req grants answered)
  have replies : onClient (write socksOKReply) ⟨⟨payload, methodNone, none⟩,
      ⟨answered, Socks.greeting ++ req, none⟩, none, true⟩ =
        .ok () ⟨⟨payload, methodNone ++ socksOKReply, none⟩,
          ⟨answered, Socks.greeting ++ req, none⟩, none, true⟩ :=
    reply_written ..
  rw [handle, serveConn, bind_of_ok greets, if_pos rfl, bind_of_ok reads]
  dsimp only
  rw [Go.answer, if_neg (show ¬ request.code ≠ 0x01 from not_not.mpr asks),
    bind_of_ok (attempt_of_ok connects)]
  dsimp only
  rw [bind_of_ok replies]
  rfl

/-- For a client that sends a greeting, a request and a payload, and an upstream
that grants the request and sends an answer: in every interleaving of the relay
each peer has received its part of the handshake and then a part of the other's
payload, from its start and in order; and all of it, when the copy in that
direction has met the end of its stream. -/
theorem go_session_streams (lower : Nat → Nat) (dnsMap : Mapping) {greeting : Greeting}
    {request reply : Frame} {req : Bytes} (payload answered : Bytes)
    (offers : greeting.OffersNone) (asks : request.code = connect)
    (made : socksConnectRequest (rewriteHost lower (hostText request.address) dnsMap)
      (fromBeBytes request.port) = .ok req)
    (grants : reply.version = version ∧ reply.code = succeeded) :
    ∃ w, handle lower dnsMap (.start (greeting.encode ++ (request.encode ++ payload)) none
        (.ofBytes (methodNone ++ (reply.encode ++ answered)))) = (.relay, w) ∧
      ∀ (labels : List Label) (s : Relay), run relayStep (relayOf w) labels = some s →
        (∃ sent, toUpstream w s = Socks.greeting ++ req ++ sent ∧ sent <+: payload ∧
          ((s.copies .client).phase.how = some .eof → sent = payload)) ∧
        (∃ sent, toClient w s = methodNone ++ socksOKReply ++ sent ∧ sent <+: answered ∧
          ((s.copies .upstream).phase.how = some .eof → sent = answered)) := by
  refine ⟨_, handle_of_granted lower dnsMap offers asks made grants payload answered, ?_⟩
  intro labels s runs
  have carries (socket : Socket) : (s.copies socket).sent <+: streamOf payload answered socket := by
    obtain ⟨held, -, whole⟩ := (run_conserves runs socket).kept
    rw [whole, List.append_assoc]
    exact List.prefix_append _ _
  have whole (socket : Socket) := sent_eq_of_eof (run_conserves runs socket)
  exact ⟨⟨_, rfl, carries .client, whole .client⟩, ⟨_, rfl, carries .upstream, whole .upstream⟩⟩

/-- A client that asks for `a:80` and sends one byte, and an upstream that
answers with two. -/
theorem go_session_streams_short :
    ∃ w, handle id ∅ (.start ([5, 1, 0] ++ ([5, 1, 0, 3, 1, 97, 0, 80] ++ [71])) none
        (.ofBytes (methodNone ++ ([5, 0, 0, 1, 0, 0, 0, 0, 0, 0] ++ [79, 75])))) = (.relay, w) ∧
      ∀ (labels : List Label) (s : Relay), run relayStep (relayOf w) labels = some s →
        (∃ sent, toUpstream w s = Socks.greeting ++ [5, 1, 0, 3, 1, 97, 0, 80] ++ sent ∧
          sent <+: [71] ∧ ((s.copies .client).phase.how = some .eof → sent = [71])) ∧
        (∃ sent, toClient w s = methodNone ++ socksOKReply ++ sent ∧ sent <+: [79, 75] ∧
          ((s.copies .upstream).phase.how = some .eof → sent = [79, 75])) :=
  @go_session_streams id ∅ ⟨[0], by decide⟩ ⟨5, 1, 0, .domain [97] (by decide), ⟨[0, 80], rfl⟩⟩
    ⟨5, 0, 0, .ipv4 ⟨[0, 0, 0, 0], rfl⟩, ⟨[0, 0], rfl⟩⟩ [5, 1, 0, 3, 1, 97, 0, 80] [71] [79, 75]
    (by decide) rfl (by decide +kernel) ⟨rfl, rfl⟩

end TailcatSocks.Go
