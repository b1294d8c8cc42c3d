import TailcatSocks.Rust.ReplyDiscipline
import TailcatSocks.Rust.Relay

/-!
# A whole session

The relay starts from the two connections that the handshakes leave: what they
have not read of either stream is what the pumps read.  Together they say what
each peer receives over the whole session.
-/

namespace TailcatSocks.Rust

open Library Socks

/-- `relay` as `serve_conn` calls it. -/
def relayOf (w : World) (now wall : Nat) : Relay :=
  .start now wall w.upstream.unread w.client.unread

/-- What has been written to the upstream, before the relay and in it. -/
def toUpstream (w : World) (s : Relay) : Bytes := w.upstream.written ++ (s.pumps .up).sent

/-- What has been written to the client, before the relay and in it. -/
def toClient (w : World) (s : Relay) : Bytes := w.client.written ++ (s.pumps .down).sent

/-- For a client that sends a greeting, a request and a payload, and an upstream
that grants the request and sends an answer: in every interleaving of the relay
each peer has received its part of the handshake and then a part of the other's
payload, from its start and in order; and all of it, when the pump in that
direction ended the relay at the end of its stream. -/
theorem session_streams (dnsMap : Mapping) (greeting : Greeting) (request reply : Frame)
    (payload answer : Bytes) (offers : greeting.OffersNone) (asks : request.code = connect)
    (grants : reply.version = version ∧ reply.code = succeeded) :
    ∃ w, handle dnsMap (.start (greeting.encode ++ (request.encode ++ payload)) none
        (.ofBytes (methodNone ++ (reply.encode ++ answer)))) = (.relay, w) ∧
      ∀ (idle now wall : Nat) (labels : List Label) (s : Relay),
        run (relayStep idle) (relayOf w now wall) labels = some s →
        (∃ sent, toUpstream w s = Socks.greeting ++ upstreamRequest
            (rewriteHost (hostText request.address) dnsMap) (fromBeBytes request.port) ++ sent ∧
          sent <+: payload ∧ ((s.pumps .up).phase = .done .eof → sent = payload)) ∧
        (∃ sent, toClient w s = methodNone ++ socksOkReply ++ sent ∧
          sent <+: answer ∧ ((s.pumps .down).phase = .done .eof → sent = answer)) := by
  refine ⟨_, handle_of_granted dnsMap none _ offers asks rfl rfl (Conn.admits_of_uncut rfl _) grants,
    ?_⟩
  intro idle now wall labels s runs
  have up := run_conserves runs .up
  have down := run_conserves runs .down
  exact ⟨⟨(s.pumps .up).sent, rfl, sent_isPrefix up, sent_eq_of_eof up⟩,
    ⟨(s.pumps .down).sent, rfl, sent_isPrefix down, sent_eq_of_eof down⟩⟩

/-- A client that asks for `a:80` and sends one byte, and an upstream that
answers with two. -/
theorem session_streams_short :
    ∃ w, handle ∅ (.start ([5, 1, 0] ++ ([5, 1, 0, 3, 1, 97, 0, 80] ++ [71])) none
        (.ofBytes ([5, 0] ++ ([5, 0, 0, 1, 0, 0, 0, 0, 0, 0] ++ [79, 75])))) = (.relay, w) ∧
      ∀ (idle now wall : Nat) (labels : List Label) (s : Relay),
        run (relayStep idle) (relayOf w now wall) labels = some s →
        (∃ sent, toUpstream w s = [5, 1, 0] ++ [5, 1, 0, 3, 1, 97, 0, 80] ++ sent ∧
          sent <+: [71] ∧ ((s.pumps .up).phase = .done .eof → sent = [71])) ∧
        (∃ sent, toClient w s = [5, 0] ++ socksOkReply ++ sent ∧
          sent <+: [79, 75] ∧ ((s.pumps .down).phase = .done .eof → sent = [79, 75])) := by
  obtain ⟨w, handled, streams⟩ := session_streams ∅ ⟨[0], by decide⟩
    ⟨5, 1, 0, .domain [97] (by decide), ⟨[0, 80], rfl⟩⟩
    ⟨5, 0, 0, .ipv4 ⟨[0, 0, 0, 0], rfl⟩, ⟨[0, 0], rfl⟩⟩ [71] [79, 75] (by decide) rfl ⟨rfl, rfl⟩
  refine ⟨w, handled, fun idle now wall labels s runs => ?_⟩
  obtain ⟨⟨up, upIs, rest⟩, down⟩ := streams idle now wall labels s runs
  have request : upstreamRequest (rewriteHost [97] ∅) (fromBeBytes ⟨[0, 80], rfl⟩) =
      [5, 1, 0, 3, 1, 97, 0, 80] := by
    decide +kernel
  exact ⟨⟨up, upIs.trans (congrArg (fun bytes => Socks.greeting ++ bytes ++ up) request), rest⟩,
    down⟩

end TailcatSocks.Rust
