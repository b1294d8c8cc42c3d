import TailcatSocks.Rust.Proxy

/-!
# What a client is answered

Six cases exhaust the streams that a client can send and the ways an upstream
can behave: no greeting, a greeting without an acceptable method, no complete
request, a request for another command, a request that the upstream does not
grant, and a request that it grants.  Each case has one answer.
-/

namespace TailcatSocks.Rust

open Library Socks

/-- The answer to a greeting without an acceptable method. -/
def refusal : Bytes := [0x05, 0xFF]

/-! ## The greeting -/

theorem greet_of_greeting (conn : Conn) (uncut : conn.cut = none) {greeting : Greeting}
    {rest : Bytes} (starts : conn.unread = greeting.encode ++ rest) :
    greet conn =
      if greeting.OffersNone then .ok true ⟨rest, conn.written ++ methodNone, none⟩
      else .ok false ⟨rest, conn.written ++ refusal, none⟩ := by
  have read := readMethods_eq_some.mpr
    ⟨greeting, rest, starts, Conn.admits_of_uncut uncut _, rfl, rfl⟩
  rw [Conn.advance_of_uncut uncut, List.append_nil] at read
  unfold greet
  rw [bind_of_ok read]
  by_cases offers : greeting.OffersNone
  · have contained : greeting.methods.contains 0x00 = true := List.contains_iff_mem.mpr offers
    have answered := writeAll_uncut SocksError.io methodNone ⟨rest, conn.written, none⟩ rfl
    rw [Conn.advance_of_uncut rfl] at answered
    simp only [contained, not_true_eq_false, if_false, if_pos offers]
    exact bind_of_ok answered
  · have missing : ¬ greeting.methods.contains 0x00 = true := fun contained =>
      offers (List.contains_iff_mem.mp contained)
    have answered := writeAll_uncut SocksError.io refusal ⟨rest, conn.written, none⟩ rfl
    rw [Conn.advance_of_uncut rfl] at answered
    rw [if_neg offers]
    simp only [missing, not_false_eq_true, if_true, Bool.false_eq_true]
    exact bind_of_ok answered

/-- Without a complete greeting nothing is answered. -/
theorem greet_of_none (conn : Conn)
    (absent : ∀ (greeting : Greeting) rest, conn.unread ≠ greeting.encode ++ rest) :
    (after greet conn).written = conn.written ∧ ∀ next, greet conn ≠ .ok true next := by
  have silent := readMethods_silent conn
  unfold greet
  cases read : readMethods conn with
  | error e next =>
      rw [after_of_error read] at silent
      rw [after_of_error (bind_of_error read), bind_of_error read]
      exact ⟨silent, fun _ impossible => by cases impossible⟩
  | ok methods next =>
      rw [after_of_ok read] at silent
      rw [after_bind_of_ok read, bind_of_ok read]
      cases methods with
      | none => exact ⟨silent, fun _ impossible => by cases impossible⟩
      | some methods =>
          obtain ⟨greeting, rest, starts, -⟩ := readMethods_eq_some.mp read
          exact absurd starts (absent greeting rest)

/-! ## The upstream -/

/-- Dialling succeeds, and within the window the upstream accepts the greeting
and answers with a frame that grants the request. -/
def Granted (dialFault : Option Fault) (upstream : Conn) : Prop :=
  dialFault = none ∧ ∃ reply : Frame, ∃ rest,
    upstream.unread = methodNone ++ (reply.encode ++ rest) ∧
    upstream.Admits (3 + reply.awaits) ∧ reply.version = version ∧ reply.code = succeeded

theorem forward_of_granted {target : Bytes} {port : UInt16} (w : World) {next : Conn}
    (dials : w.dialFault = none)
    (connects : upstreamConnect target port w.upstream = .ok () next) :
    forward target port w = .ok () ⟨w.client, next, w.dialFault, true⟩ := by
  unfold forward
  rw [bind_of_ok (dial_of_none SocksError.io dials)]
  exact onPart_of_ok connects

/-- A window that ends in an error leaves the client alone. -/
theorem forward_of_not_granted (target : Bytes) (port : UInt16) (w : World)
    (refused : ¬ Granted w.dialFault w.upstream) :
    ∃ e next, forward target port w = .error e next ∧ next.client = w.client ∧
      next.dialFault = w.dialFault ∧ next.dialled = true := by
  unfold forward
  cases dials : w.dialFault with
  | some fault =>
      exact ⟨_, _, bind_of_error (dial_of_fault SocksError.io dials), rfl, dials, rfl⟩
  | none =>
      rw [bind_of_ok (dial_of_none SocksError.io dials)]
      cases connects : upstreamConnect target port w.upstream with
      | error e next => exact ⟨_, _, onPart_of_error connects, rfl, dials, rfl⟩
      | ok u next =>
          obtain ⟨reply, rest, starts, room, granted, -⟩ :=
            (upstreamConnect_eq_ok target port).mp connects
          exact absurd ⟨dials, reply, rest, starts, room, granted⟩ refused

/-! ## The whole exchange -/

variable (dnsMap : Mapping) (dialFault : Option Fault) (upstream : Conn)

theorem handle_of_no_greeting {stream : Bytes}
    (absent : ∀ (greeting : Greeting) rest, stream ≠ greeting.encode ++ rest) :
    ∃ client, handle dnsMap (.start stream dialFault upstream) =
      (.closed, ⟨client, upstream, dialFault, false⟩) ∧ client.written = [] := by
  obtain ⟨silent, stops⟩ := greet_of_none (.ofBytes stream) absent
  unfold handle serveConn World.start
  cases greets : greet (.ofBytes stream) with
  | error e next =>
      rw [after_of_error greets] at silent
      refine ⟨next, ?_, silent⟩
      rw [bind_of_error (onClient_of_error greets ..)]
      rfl
  | ok goesOn next =>
      rw [after_of_ok greets] at silent
      cases goesOn with
      | true => exact absurd greets (stops next)
      | false =>
          refine ⟨next, ?_, silent⟩
          rw [bind_of_ok (onClient_of_ok greets ..)]
          rfl

theorem handle_of_refused {greeting : Greeting} {rest : Bytes} (refused : ¬ greeting.OffersNone) :
    handle dnsMap (.start (greeting.encode ++ rest) dialFault upstream) =
      (.closed, ⟨⟨rest, refusal, none⟩, upstream, dialFault, false⟩) := by
  have greets := greet_of_greeting (.ofBytes (greeting.encode ++ rest)) rfl rfl
  rw [if_neg refused] at greets
  unfold handle serveConn World.start
  rw [bind_of_ok (onClient_of_ok greets ..)]
  rfl

/-- The state in which the request is read. -/
abbrev accepted (rest : Bytes) : World := ⟨⟨rest, methodNone, none⟩, upstream, dialFault, false⟩

theorem serveConn_of_offered {greeting : Greeting} {rest : Bytes} (offers : greeting.OffersNone) :
    serveConn dnsMap (.start (greeting.encode ++ rest) dialFault upstream) =
      (onClient readRequest >>= fun read => answer dnsMap read.1 read.2.1 read.2.2)
        (accepted dialFault upstream rest) := by
  have greets := greet_of_greeting (.ofBytes (greeting.encode ++ rest)) rfl rfl
  rw [if_pos offers] at greets
  unfold serveConn World.start
  rw [bind_of_ok (onClient_of_ok greets ..)]
  rfl

theorem handle_of_no_request {greeting : Greeting} {rest : Bytes} (offers : greeting.OffersNone)
    (absent : ∀ (frame : Frame) rest', rest ≠ frame.encode ++ rest') :
    ∃ client, handle dnsMap (.start (greeting.encode ++ rest) dialFault upstream) =
      (.closed, ⟨client, upstream, dialFault, false⟩) ∧ client.written = methodNone := by
  rw [handle, serveConn_of_offered dnsMap dialFault upstream offers]
  have silent := readRequest_silent ⟨rest, methodNone, none⟩
  cases read : readRequest ⟨rest, methodNone, none⟩ with
  | error e next =>
      rw [after_of_error read] at silent
      refine ⟨next, ?_, silent⟩
      rw [bind_of_error (onClient_of_error read ..)]
      rfl
  | ok request next =>
      obtain ⟨frame, rest', starts, -⟩ := readRequest_eq_ok.mp read
      exact absurd starts (absent frame rest')

theorem serveConn_of_request {greeting : Greeting} {frame : Frame} {rest : Bytes}
    (offers : greeting.OffersNone) :
    serveConn dnsMap (.start (greeting.encode ++ (frame.encode ++ rest)) dialFault upstream) =
      answer dnsMap frame.code (hostText frame.address) (fromBeBytes frame.port)
        (accepted dialFault upstream rest) := by
  have read : readRequest ⟨frame.encode ++ rest, methodNone, none⟩ =
      .ok (frame.code, hostText frame.address, fromBeBytes frame.port)
        ⟨rest, methodNone, none⟩ := by
    refine readRequest_eq_ok.mpr ⟨frame, rest, rfl, Conn.admits_of_uncut rfl _, rfl, ?_⟩
    rw [Conn.advance_of_uncut rfl, List.append_nil]
  rw [serveConn_of_offered dnsMap dialFault upstream offers, bind_of_ok (onClient_of_ok read ..)]

theorem handle_of_other_command {greeting : Greeting} {frame : Frame} {rest : Bytes}
    (offers : greeting.OffersNone) (other : frame.code ≠ connect) :
    handle dnsMap (.start (greeting.encode ++ (frame.encode ++ rest)) dialFault upstream) =
      (.closed, ⟨⟨rest, methodNone ++ socksFailReply, none⟩, upstream, dialFault, false⟩) := by
  rw [handle, serveConn_of_request dnsMap dialFault upstream offers, answer,
    if_pos (show frame.code ≠ 0x01 from other)]
  rw [bind_of_ok (reply_written ..)]
  rfl

theorem handle_of_not_granted {greeting : Greeting} {frame : Frame} (rest : Bytes)
    (offers : greeting.OffersNone) (asks : frame.code = connect)
    (refused : ¬ Granted dialFault upstream) :
    ∃ upstream', handle dnsMap
        (.start (greeting.encode ++ (frame.encode ++ rest)) dialFault upstream) =
      (.closed, ⟨⟨rest, methodNone ++ socksFailReply, none⟩, upstream', dialFault, true⟩) := by
  obtain ⟨e, ⟨client, upstream', dialFault', dialled⟩, failed, sameClient, sameFault, didDial⟩ :=
    forward_of_not_granted (rewriteHost (hostText frame.address) dnsMap)
      (fromBeBytes frame.port) (accepted dialFault upstream rest) refused
  obtain rfl : client = ⟨rest, methodNone, none⟩ := sameClient
  obtain rfl : dialFault = dialFault' := sameFault.symm
  obtain rfl : dialled = true := didDial
  refine ⟨upstream', ?_⟩
  rw [handle, serveConn_of_request dnsMap dialFault upstream offers, answer,
    if_neg (show ¬ frame.code ≠ 0x01 from not_not.mpr asks), bind_of_ok (attempt_of_error failed)]
  simp only
  rw [bind_of_ok (reply_written ..)]
  rfl

theorem handle_of_granted {greeting : Greeting} {frame reply : Frame} {rest answered : Bytes}
    (offers : greeting.OffersNone) (asks : frame.code = connect) (dials : dialFault = none)
    (starts : upstream.unread = methodNone ++ (reply.encode ++ answered))
    (room : upstream.Admits (3 + reply.awaits))
    (grants : reply.version = version ∧ reply.code = succeeded) :
    handle dnsMap (.start (greeting.encode ++ (frame.encode ++ rest)) dialFault upstream) =
      (.relay, ⟨⟨rest, methodNone ++ socksOkReply, none⟩,
        upstream.advance (3 + reply.awaits) answered
          (Socks.greeting ++ upstreamRequest (rewriteHost (hostText frame.address) dnsMap)
            (fromBeBytes frame.port)), dialFault, true⟩) := by
  have forwarded := forward_of_granted (accepted dialFault upstream rest) dials
    ((upstreamConnect_eq_ok (rewriteHost (hostText frame.address) dnsMap)
      (fromBeBytes frame.port)).mpr ⟨reply, answered, starts, room, grants, rfl⟩)
  rw [handle, serveConn_of_request dnsMap dialFault upstream offers, answer,
    if_neg (show ¬ frame.code ≠ 0x01 from not_not.mpr asks), bind_of_ok (attempt_of_ok forwarded)]
  simp only
  rw [bind_of_ok (reply_written ..)]
  rfl

/-- The stream is a greeting that offers to go on and a request to connect. -/
def AsksToConnect (stream : Bytes) : Prop :=
  ∃ (greeting : Greeting) (frame : Frame) (rest : Bytes),
    stream = greeting.encode ++ (frame.encode ++ rest) ∧ greeting.OffersNone ∧
      frame.code = connect

/-- The six ends of the exchange. -/
inductive Ending (stream : Bytes) : World → Prop where
  | noGreeting {w : World} : w.client.written = [] → w.dialled = false → Ending stream w
  | refused {w : World} (greeting : Greeting) (rest : Bytes) :
      stream = greeting.encode ++ rest → ¬ greeting.OffersNone →
      w.client.written = refusal → w.dialled = false → Ending stream w
  | noRequest {w : World} : w.client.written = methodNone → w.dialled = false → Ending stream w
  | otherCommand {w : World} :
      w.client.written = methodNone ++ socksFailReply → w.dialled = false → Ending stream w
  | notGranted {w : World} :
      AsksToConnect stream → ¬ Granted dialFault upstream →
      w.client.written = methodNone ++ socksFailReply → w.dialled = true → Ending stream w
  | granted {w : World} :
      AsksToConnect stream → Granted dialFault upstream →
      w.client.written = methodNone ++ socksOkReply → w.dialled = true → Ending stream w

theorem handle_ending (stream : Bytes) :
    Ending dialFault upstream stream (handle dnsMap (.start stream dialFault upstream)).2 := by
  by_cases greets : ∃ (greeting : Greeting) (rest : Bytes), stream = greeting.encode ++ rest
  · obtain ⟨greeting, tail, rfl⟩ := greets
    by_cases offers : greeting.OffersNone
    · by_cases requests : ∃ (frame : Frame) (rest : Bytes), tail = frame.encode ++ rest
      · obtain ⟨frame, rest, rfl⟩ := requests
        by_cases asks : frame.code = connect
        · have asked : AsksToConnect (greeting.encode ++ (frame.encode ++ rest)) :=
            ⟨greeting, frame, rest, rfl, offers, asks⟩
          by_cases grants : Granted dialFault upstream
          · obtain ⟨dials, reply, answered, starts, room, granted⟩ := grants
            rw [handle_of_granted dnsMap dialFault upstream offers asks dials starts room granted]
            exact .granted asked ⟨dials, reply, answered, starts, room, granted⟩ rfl rfl
          · obtain ⟨upstream', handled⟩ :=
              handle_of_not_granted dnsMap dialFault upstream rest offers asks grants
            rw [handled]
            exact .notGranted asked grants rfl rfl
        · rw [handle_of_other_command dnsMap dialFault upstream offers asks]
          exact .otherCommand rfl rfl
      · rw [not_exists] at requests
        obtain ⟨client, handled, written⟩ := handle_of_no_request dnsMap dialFault upstream offers
          fun frame rest starts => requests frame ⟨rest, starts⟩
        rw [handled]
        exact .noRequest written rfl
    · rw [handle_of_refused dnsMap dialFault upstream offers]
      exact .refused greeting tail rfl offers rfl rfl
  · rw [not_exists] at greets
    obtain ⟨client, handled, written⟩ := handle_of_no_greeting dnsMap dialFault upstream
      fun greeting rest starts => greets greeting ⟨rest, starts⟩
    rw [handled]
    exact .noGreeting written rfl

theorem sent_cases (stream : Bytes) :
    (handle dnsMap (.start stream dialFault upstream)).2.client.written ∈
      [[], refusal, methodNone, methodNone ++ socksFailReply, methodNone ++ socksOkReply] := by
  cases handle_ending dnsMap dialFault upstream stream with
  | noGreeting written _ | refused _ _ _ _ written _ | noRequest written _
  | otherCommand written _ | notGranted _ _ written _ | granted _ _ written _ => simp [written]

theorem sent_refusal_iff (stream : Bytes) :
    (handle dnsMap (.start stream dialFault upstream)).2.client.written = refusal ↔
      ∃ (greeting : Greeting) (rest : Bytes),
        stream = greeting.encode ++ rest ∧ ¬ greeting.OffersNone := by
  constructor
  · intro isRefusal
    cases handle_ending dnsMap dialFault upstream stream with
    | refused greeting rest starts offers _ _ => exact ⟨greeting, rest, starts, offers⟩
    | noGreeting written _ | noRequest written _ | otherCommand written _
    | notGranted _ _ written _ | granted _ _ written _ =>
        exact absurd (written.symm.trans isRefusal) (by decide)
  · rintro ⟨greeting, rest, rfl, offers⟩
    rw [handle_of_refused dnsMap dialFault upstream offers]

theorem dialled_iff (stream : Bytes) :
    (handle dnsMap (.start stream dialFault upstream)).2.dialled = true ↔
      AsksToConnect stream := by
  constructor
  · intro didDial
    cases handle_ending dnsMap dialFault upstream stream with
    | notGranted asks _ _ _ | granted asks _ _ _ => exact asks
    | noGreeting _ idle | refused _ _ _ _ _ idle | noRequest _ idle | otherCommand _ idle =>
        exact absurd (idle.symm.trans didDial) (by decide)
  · rintro ⟨greeting, frame, rest, rfl, offers, asks⟩
    by_cases grants : Granted dialFault upstream
    · obtain ⟨dials, reply, answered, starts, room, granted⟩ := grants
      rw [handle_of_granted dnsMap dialFault upstream offers asks dials starts room granted]
    · obtain ⟨upstream', handled⟩ :=
        handle_of_not_granted dnsMap dialFault upstream rest offers asks grants
      rw [handled]

theorem sent_ok_iff (stream : Bytes) :
    (handle dnsMap (.start stream dialFault upstream)).2.client.written =
        methodNone ++ socksOkReply ↔
      (handle dnsMap (.start stream dialFault upstream)).2.dialled = true ∧
        Granted dialFault upstream := by
  constructor
  · intro isOk
    cases handle_ending dnsMap dialFault upstream stream with
    | granted _ grants _ didDial => exact ⟨didDial, grants⟩
    | noGreeting written _ | refused _ _ _ _ written _ | noRequest written _
    | otherCommand written _ | notGranted _ _ written _ =>
        exact absurd (written.symm.trans isOk) (by decide)
  · rintro ⟨didDial, grants⟩
    cases handle_ending dnsMap dialFault upstream stream with
    | granted _ _ written _ => exact written
    | notGranted _ refuses _ _ => exact absurd grants refuses
    | noGreeting _ idle | refused _ _ _ _ _ idle | noRequest _ idle | otherCommand _ idle =>
        exact absurd (idle.symm.trans didDial) (by decide)

/-- A complete request is answered, whatever it asks for. -/
theorem sent_of_request {greeting : Greeting} {frame : Frame} {rest : Bytes}
    (offers : greeting.OffersNone) :
    let sent := (handle dnsMap
      (.start (greeting.encode ++ (frame.encode ++ rest)) dialFault upstream)).2.client.written
    sent = methodNone ++ socksFailReply ∨ sent = methodNone ++ socksOkReply := by
  by_cases asks : frame.code = connect
  · by_cases grants : Granted dialFault upstream
    · obtain ⟨dials, reply, answered, starts, room, granted⟩ := grants
      rw [handle_of_granted dnsMap dialFault upstream offers asks dials starts room granted]
      exact .inr rfl
    · obtain ⟨upstream', handled⟩ :=
        handle_of_not_granted dnsMap dialFault upstream rest offers asks grants
      rw [handled]
      exact .inl rfl
  · rw [handle_of_other_command dnsMap dialFault upstream offers asks]
    exact .inl rfl

/-- What the client is sent before the relay, for every stream and every
upstream, is one of five answers, and each is sent in exactly its case. -/
theorem handle_reply_discipline (stream : Bytes) :
    let sent := (handle dnsMap (.start stream dialFault upstream)).2.client.written
    let dialled := (handle dnsMap (.start stream dialFault upstream)).2.dialled
    sent ∈ [[], refusal, methodNone, methodNone ++ socksFailReply, methodNone ++ socksOkReply] ∧
      (sent = refusal ↔ ∃ (greeting : Greeting) (rest : Bytes),
        stream = greeting.encode ++ rest ∧ ¬ greeting.OffersNone) ∧
      (dialled = true ↔ ∃ (greeting : Greeting) (frame : Frame) (rest : Bytes),
        stream = greeting.encode ++ (frame.encode ++ rest) ∧ greeting.OffersNone ∧
          frame.code = connect) ∧
      (sent = methodNone ++ socksOkReply ↔ dialled = true ∧ dialFault = none ∧
        ∃ (reply : Frame) (rest : Bytes), upstream.unread = methodNone ++ (reply.encode ++ rest) ∧
          upstream.Admits (3 + reply.awaits) ∧ reply.version = version ∧
          reply.code = succeeded) ∧
      ∀ (greeting : Greeting) (frame : Frame) (rest : Bytes),
        stream = greeting.encode ++ (frame.encode ++ rest) → greeting.OffersNone →
          sent ≠ methodNone ++ socksOkReply → sent = methodNone ++ socksFailReply := by
  refine ⟨sent_cases .., sent_refusal_iff .., dialled_iff .., sent_ok_iff .., ?_⟩
  rintro greeting frame rest rfl offers notOk
  exact (sent_of_request dnsMap dialFault upstream offers).resolve_right notOk

end TailcatSocks.Rust
