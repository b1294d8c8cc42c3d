import TailcatSocks.Python.Answered
import TailcatSocks.Python.Relay

/-!
# A whole Python session

The relay starts from the two connections that the handshakes leave: what they
have not read of either stream is what it reads.
-/

namespace TailcatSocks.Python

open Library Socks

/-- `_relay` as `_handle_inner` calls it. -/
def relayOf (w : World) (now : Nat) : Relay := .start now w.client.unread w.upstream.unread

/-- What has been written to the upstream, before the relay and in it. -/
def toUpstream (w : World) (s : Relay) : Bytes := w.upstream.written ++ (s.legs .client).sent

/-- What has been written to the client, before the relay and in it. -/
def toClient (w : World) (s : Relay) : Bytes := w.client.written ++ (s.legs .upstream).sent

variable {inet : Inet} {host : Str} {port : UInt16} {req : Bytes} {reply : Frame} {bound : Str}

/-- A reply that grants, with a bound address that can be read. -/
theorem upstreamReply_of_granted (grants : reply.version = version ∧ reply.code = succeeded)
    (text : hostText inet reply.address = some bound) (rest written : Bytes) :
    upstreamReply inet ⟨reply.encode ++ rest, written, none⟩ =
      .ok true ⟨rest, written, none⟩ := by
  have readHead := readn_front reply.head (reply.address.body ++ (reply.port.1 ++ rest)) written
  have accepted : ¬ (reply.head.get 0 ≠ 0x05 ∨ reply.head.get 1 ≠ 0x00) := by
    rw [not_or, ne_eq, ne_eq, not_not, not_not]
    exact grants
  unfold upstreamReply
  rw [Frame.encode, List.append_assoc, List.append_assoc, bind_of_ok readHead, if_neg accepted]
  change (readAtypAddr inet reply.address.atyp >>= _) _ = _
  rw [bind_of_ok (readAtypAddr_of_text text ..), bind_of_ok (readn_front reply.port rest written)]
  rfl

theorem upstreamConnect_of_granted (made : upstreamRequest inet host port = .ok req)
    (grants : reply.version = version ∧ reply.code = succeeded)
    (text : hostText inet reply.address = some bound) (rest : Bytes) :
    upstreamConnect inet host port (.ofBytes (methodNone ++ (reply.encode ++ rest))) =
      .ok true ⟨rest, greeting ++ req, none⟩ := by
  have readMethod := readn_front (⟨methodNone, rfl⟩ : Block 2) (reply.encode ++ rest) greeting
  unfold upstreamConnect Conn.ofBytes
  rw [bind_of_ok (sendall_uncut _ _ [])]
  change (readn 2 >>= _) ⟨methodNone ++ (reply.encode ++ rest), greeting, none⟩ = _
  rw [bind_of_ok readMethod, if_neg (by decide), made]
  change (sendall req >>= fun _ => upstreamReply inet) _ = _
  rw [bind_of_ok (sendall_uncut ..), upstreamReply_of_granted grants text]

/-- The connections that the handshakes leave to the relay. -/
theorem handle_of_granted (table : Str → Str) (dnsMap : Mapping) {greeting : Greeting}
    {request : Frame} (offers : greeting.OffersNone) (asks : request.code = connect)
    (requested : hostText inet request.address = some host)
    (made : upstreamRequest inet (rewriteHost table host dnsMap) (fromBeBytes request.port) =
      .ok req)
    (grants : reply.version = version ∧ reply.code = succeeded)
    (text : hostText inet reply.address = some bound) (payload answer : Bytes) :
    handle inet table dnsMap (.start (greeting.encode ++ (request.encode ++ payload)) none
        (.ofBytes (methodNone ++ (reply.encode ++ answer)))) =
      (.relay, ⟨⟨payload, methodNone ++ socksOkReply, none⟩,
        ⟨answer, Socks.greeting ++ req, none⟩, none, true⟩) := by
  have opened : openUpstream (accepted payload
      (.ofBytes (methodNone ++ (reply.encode ++ answer))) none) =
        .ok true ⟨⟨payload, methodNone, none⟩, .ofBytes (methodNone ++ (reply.encode ++ answer)),
          none, true⟩ := rfl
  have connects : connectUpstream inet (rewriteHost table host dnsMap) (fromBeBytes request.port)
      ⟨⟨payload, methodNone, none⟩, .ofBytes (methodNone ++ (reply.encode ++ answer)), none, true⟩ =
        .ok true
          ⟨⟨payload, methodNone, none⟩, ⟨answer, Socks.greeting ++ req, none⟩, none, true⟩ := by
    have done : onUpstream (upstreamConnect inet (rewriteHost table host dnsMap)
        (fromBeBytes request.port)) ⟨⟨payload, methodNone, none⟩,
          .ofBytes (methodNone ++ (reply.encode ++ answer)), none, true⟩ =
        .ok true ⟨⟨payload, methodNone, none⟩, ⟨answer, Socks.greeting ++ req, none⟩, none, true⟩ :=
      onPart_of_ok (upstreamConnect_of_granted made grants text answer)
    exact exceptOsError_of_ok (bind_of_ok done)
  rw [handle, handleInner_of_request table dnsMap _ none offers requested, Python.answer,
    if_neg (show ¬ request.code ≠ 0x01 from not_not.mpr asks), bind_of_ok opened, if_pos rfl,
    bind_of_ok connects]
  change recover _ ((onClient (sendall socksOkReply) >>= _) _) = _
  rw [bind_of_ok (onClient_sendall ..)]
  rfl

/-- For a client that sends a greeting, a request and a payload, and an upstream
that grants the request and sends an answer: in every run of the relay each peer
has received its part of the handshake and then a part of the other's payload,
from its start and in order; and all of it, when the relay ended because that
other peer had closed.  A host goes upstream under the map of the request. -/
theorem python_session_streams (inet : Inet) (table : Str → Str) (dnsMap : Mapping)
    {greeting : Greeting} {request reply : Frame} {host bound : Str} {req : Bytes}
    (payload answer : Bytes)
    (offers : greeting.OffersNone) (asks : request.code = connect)
    (requested : hostText inet request.address = some host)
    (made : upstreamRequest inet (rewriteHost table host dnsMap) (fromBeBytes request.port) =
      .ok req)
    (grants : reply.version = version ∧ reply.code = succeeded)
    (text : hostText inet reply.address = some bound) :
    ∃ w, handle inet table dnsMap (.start (greeting.encode ++ (request.encode ++ payload)) none
        (.ofBytes (methodNone ++ (reply.encode ++ answer)))) = (.relay, w) ∧
      ∀ (now : Nat) (labels : List RelayLabel) (s : Relay),
        run relayStep (relayOf w now) labels = some s →
        (∃ sent, toUpstream w s = Socks.greeting ++ req ++ sent ∧ sent <+: payload ∧
          ∀ calls, s.stage = .ended (.eof .client) calls → sent = payload) ∧
        (∃ sent, toClient w s = methodNone ++ socksOkReply ++ sent ∧ sent <+: answer ∧
          ∀ calls, s.stage = .ended (.eof .upstream) calls → sent = answer) := by
  refine ⟨_, handle_of_granted table dnsMap offers asks requested made grants text payload answer,
    ?_⟩
  intro now labels s runs
  have whole (x : Socket) (calls : List (Socket × Call)) (ended : s.stage = .ended (.eof x) calls) :
      (s.legs x).sent = streamOf payload answer x := sent_eq_of_eof runs ended
  exact ⟨⟨_, rfl, sent_isPrefix runs .client, whole .client⟩,
    ⟨_, rfl, sent_isPrefix runs .upstream, whole .upstream⟩⟩

/-- A client that asks for `a:443` and sends one byte, and an upstream that
answers with two. -/
theorem python_session_streams_short :
    ∃ w, handle standardInet id ∅ (.start (noAuth.encode ++ (connectToA.encode ++ [71])) none
        (.ofBytes (methodNone ++
          (Frame.encode ⟨5, 0, 0, .ipv4 ⟨[0, 0, 0, 0], rfl⟩, ⟨[0, 0], rfl⟩⟩ ++ [79, 75])))) =
        (.relay, w) ∧
      ∀ (now : Nat) (labels : List RelayLabel) (s : Relay),
        run relayStep (relayOf w now) labels = some s →
        (∃ sent, toUpstream w s = Socks.greeting ++ [5, 1, 0, 3, 1, 97, 1, 187] ++ sent ∧
          sent <+: [71] ∧ ∀ calls, s.stage = .ended (.eof .client) calls → sent = [71]) ∧
        (∃ sent, toClient w s = methodNone ++ socksOkReply ++ sent ∧ sent <+: [79, 75] ∧
          ∀ calls, s.stage = .ended (.eof .upstream) calls → sent = [79, 75]) :=
  python_session_streams standardInet id ∅ [71] [79, 75] (by decide) (by decide) rfl (by rfl)
    ⟨rfl, rfl⟩ rfl

end TailcatSocks.Python
