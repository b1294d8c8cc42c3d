import TailcatSocks.Library.Pipe
import TailcatSocks.Go.Relay

/-!
# The Go relay as a pipe

Each copying goroutine has a buffer of its own, so that neither direction waits
for the other: the relay does with the bytes what a pipe with a buffer for each
lane does.
-/

namespace TailcatSocks.Go

open Library

instance : Fintype Socket := ⟨{.client, .upstream}, fun socket => by cases socket <;> decide⟩

structure CopyShows (c : Copy) (lane : Lane UInt8) : Prop where
  source : lane.source = c.source
  sent : lane.sent = c.sent
  held : c.phase.Holds lane.held

/-- The lanes of a pipe are the copies of the relay. -/
def Shows (s : Relay) (pipe : Socket → Lane UInt8) : Prop :=
  ∀ socket, CopyShows (s.copies socket) (pipe socket)

/-- The pipe that `relay` finds. -/
def freshPipe (fromClient fromUpstream : Bytes) (socket : Socket) : Lane UInt8 :=
  .start (streamOf fromClient fromUpstream socket)

/-! ## One copy -/

section Copies

variable {source sink : SocketState} {c c' : Copy} {event : CopyEvent} {lane lane' : Lane UInt8}

theorem read_le_bufferSize {count : Nat} (taken : copyStep source sink c (.read count) = some c') :
    count ≤ bufferSize := by
  simp only [copyStep] at taken
  split at taken
  · exact (Option.ite_none_right_eq_some.mp taken).1.2.2.1
  · cases taken

/-- A copy that waits for a read holds nothing. -/
theorem CopyShows.held_of_reading (shows : CopyShows c lane) (reading : c.phase = .reading) :
    lane.held = [] := by
  have held := shows.held
  rw [reading] at held
  exact held.resolve_left fun how => by cases how

/-- Every step of a copy is made by some motions of its lane. -/
theorem CopyShows.step (shows : CopyShows c lane)
    (taken : copyStep source sink c event = some c') :
    ∃ motions lane', run (laneStep bufferSize) lane motions = some lane' ∧ CopyShows c' lane' := by
  have held := shows.held
  cases copied_of_copyStep taken with
  | @read count reading positive enough =>
      have moves := laneStep_eq_some.mpr (Lane.Moved.take (shows.held_of_reading reading) positive
        (read_le_bufferSize taken) (shows.source ▸ enough))
      refine ⟨[.take count], _, run_cons_of_step [] moves, ?_, shows.sent, ?_⟩
      · rw [shows.source]
      · rw [shows.source]
        exact rfl
  | eof reading _ | shut reading _ | readFail reading =>
      exact ⟨[], lane, rfl, shows.source, shows.sent, .inr (shows.held_of_reading reading)⟩
  | wake waking =>
      rw [waking] at held
      exact ⟨[], lane, rfl, shows.source, shows.sent, held⟩
  | @writePart pending count writing _ =>
      rw [writing] at held
      obtain rfl : lane.held = pending := held
      obtain ⟨motions, runs⟩ := exists_give bufferSize count lane
      exact ⟨motions, _, runs, shows.source, by rw [shows.sent], rfl⟩
  | @writeAll pending count writing _ =>
      rw [writing] at held
      obtain rfl : lane.held = pending := held
      obtain ⟨motions, runs⟩ := exists_give bufferSize lane.held.length lane
      rw [List.drop_length, List.take_length] at runs
      exact ⟨motions, _, runs, shows.source, by rw [shows.sent], reading_holds⟩
  | writeFail _ => exact ⟨[], lane, rfl, shows.source, shows.sent, .inl rfl⟩
  | closeWrite phase _ | giveUp phase _ | wgDone phase =>
      rw [phase] at held
      exact ⟨[], lane, rfl, shows.source, shows.sent, held⟩

/-- A copy that is waiting for a read, or has something to write. -/
inductive Phase.Running : Phase → Prop where
  | reading : Running .reading
  | writing {pending : Bytes} : pending ≠ [] → Running (.writing pending)

/-- A socket to which nothing has been done on this side. -/
def untouched : SocketState := ⟨false, false, false⟩

/-- Every motion of its lane is made by steps of a copy that runs between two
sockets to which nothing has been done. -/
theorem exists_events_of_motion {motion : Motion} (shows : CopyShows c lane)
    (running : c.phase.Running) (taken : laneStep bufferSize lane motion = some lane') :
    ∃ events c', (∀ event ∈ events, event ≠ .closeWrite) ∧
      run (copyStep untouched untouched) c events = some c' ∧ CopyShows c' lane' ∧
      c'.phase.Running := by
  obtain ⟨source, sent, phase⟩ := c
  cases laneStep_eq_some.mp taken with
  | @take count empty positive small enough =>
      have room : count ≤ source.length := enough.trans_eq (congrArg List.length shows.source)
      cases running with
      | reading =>
          have reads : copyStep untouched untouched ⟨source, sent, .reading⟩ (.read count) =
              some ⟨source.drop count, sent, .waking (source.take count)⟩ :=
            if_pos ⟨rfl, positive, small, room⟩
          refine ⟨[.read count, .wake], ⟨source.drop count, sent, .writing (source.take count)⟩,
            by simp, ?_, ⟨?_, shows.sent, ?_⟩, .writing ?_⟩
          · rw [run_cons_of_step _ reads]
            rfl
          · rw [shows.source]
          · rw [shows.source]
            exact rfl
          · rw [← List.length_pos_iff, List.length_take, Nat.min_eq_left room]
            exact positive
      | writing more => exact absurd (shows.held.symm.trans empty) more
  | @give count positive enough =>
      cases running with
      | reading =>
          rw [shows.held_of_reading rfl] at enough
          exact absurd positive (Nat.not_lt.mpr enough)
      | @writing pending _ =>
          obtain rfl : lane.held = pending := shows.held
          have writes : copyStep untouched untouched ⟨source, sent, .writing lane.held⟩
              (.write count) = some _ := if_pos ⟨rfl, rfl, positive, enough⟩
          refine ⟨[.write count], _, by simp, run_cons_of_step [] writes,
            ⟨shows.source, ?_, ?_⟩, ?_⟩
          · rw [shows.sent]
          · dsimp only
            split
            · exact .inr ‹_›
            · exact rfl
          · dsimp only
            split
            · exact .reading
            · exact .writing ‹_›

end Copies

/-! ## Both copies -/

variable {s next : Relay} {label : Label} {pipe : Socket → Lane UInt8} {socket : Socket}

theorem Shows.update {c : Copy} {lane : Lane UInt8} {copies : Socket → Copy}
    (shows : Shows s pipe) (moved : CopyShows c lane)
    (copies_eq : copies = Function.update s.copies socket c) (other : Socket) :
    CopyShows (copies other) (Function.update pipe socket lane other) := by
  rw [copies_eq]
  by_cases here : other = socket
  · subst here
    rw [Function.update_self, Function.update_self]
    exact moved
  · rw [Function.update_of_ne here, Function.update_of_ne here]
    exact shows other

theorem copies_of_relayStep (taken : relayStep s label = some next) :
    next.copies = s.copies ∨ ∃ socket event c, copyStep (s.sockets socket)
      (s.sockets socket.other) (s.copies socket) event = some c ∧
      next.copies = Function.update s.copies socket c := by
  cases label with
  | copy socket event =>
      simp only [relayStep] at taken
      split at taken <;> cases taken
      exact .inr ⟨socket, event, _, ‹_›, rfl⟩
  | fire | timerStop | mainStop | stopCall | finish =>
      cases relayed_of_relayStep taken
      exact .inl rfl

theorem Shows.step (shows : Shows s pipe) (taken : relayStep s label = some next) :
    ∃ motions pipe', run (pipeStep false bufferSize) pipe motions = some pipe' ∧
      Shows next pipe' := by
  rcases copies_of_relayStep taken with same | ⟨socket, event, c, steps, copies_eq⟩
  · exact ⟨[], pipe, rfl, fun socket => same ▸ shows socket⟩
  · obtain ⟨motions, lane, runs, moved⟩ := (shows socket).step steps
    exact ⟨_, _, run_own_lane runs, shows.update moved copies_eq⟩

theorem relayStep_copy {event : CopyEvent} {c : Copy} (notClose : event ≠ .closeWrite)
    (steps : copyStep (s.sockets socket) (s.sockets socket.other) (s.copies socket) event =
      some c) :
    ∃ armed, relayStep s (.copy socket event) =
      some { s with copies := Function.update s.copies socket c, armed } := by
  refine ⟨if event = .wake then true else s.armed, ?_⟩
  simp only [relayStep, steps, if_neg notClose]

/-- A run of one copy, with the rest of the relay left as it is. -/
theorem run_copy {events : List CopyEvent} {c : Copy}
    (noClose : ∀ event ∈ events, event ≠ .closeWrite)
    (runs : run (copyStep (s.sockets socket) (s.sockets socket.other)) (s.copies socket) events =
      some c) :
    ∃ armed, run relayStep s (events.map fun event => .copy socket event) =
      some { s with copies := Function.update s.copies socket c, armed } := by
  induction events generalizing s with
  | nil =>
      rw [run_nil, Option.some.injEq] at runs
      refine ⟨s.armed, ?_⟩
      rw [List.map_nil, run_nil, ← runs, Function.update_eq_self]
  | cons event events ih =>
      obtain ⟨first, taken, rest⟩ := run_cons_eq_some runs
      obtain ⟨notClose, noClose⟩ := List.forall_mem_cons.mp noClose
      obtain ⟨armed, steps⟩ := relayStep_copy notClose taken
      have here : Function.update s.copies socket first socket = first := Function.update_self ..
      rw [← here] at rest
      obtain ⟨armed', goes⟩ :=
        ih (s := { s with copies := Function.update s.copies socket first, armed }) noClose rest
      refine ⟨armed', ?_⟩
      rw [List.map_cons, run_cons_of_step _ steps, goes]
      dsimp only
      rw [Function.update_idem]

/-- Both copies run between sockets to which nothing has been done. -/
structure Running (s : Relay) : Prop where
  sockets : ∀ socket, s.sockets socket = untouched
  copies : ∀ socket, (s.copies socket).phase.Running

/-- Every motion of the pipe is made by steps of a relay both of whose copies run. -/
theorem exists_run_of_motion {motion : Socket × Motion} {pipe' : Socket → Lane UInt8}
    (shows : Shows s pipe) (running : Running s)
    (taken : pipeStep false bufferSize pipe motion = some pipe') :
    ∃ labels next, run relayStep s labels = some next ∧ Shows next pipe' ∧ Running next := by
  obtain ⟨socket, motion⟩ := motion
  rw [pipeStep_own, Option.map_eq_some_iff] at taken
  obtain ⟨lane, taken, rfl⟩ := taken
  obtain ⟨events, c, noClose, runs, moved, running'⟩ :=
    exists_events_of_motion (shows socket) (running.copies socket) taken
  have between : run (copyStep (s.sockets socket) (s.sockets socket.other)) (s.copies socket)
      events = some c := by
    rw [running.sockets socket, running.sockets socket.other]
    exact runs
  obtain ⟨armed, goes⟩ := run_copy noClose between
  refine ⟨_, _, goes, shows.update moved rfl, running.sockets, ?_⟩
  exact (Function.forall_update_iff s.copies fun _ c => c.phase.Running).mpr
    ⟨running', fun other _ => running.copies other⟩

theorem start_shows (fromClient fromUpstream : Bytes) :
    Shows (.start fromClient fromUpstream) (freshPipe fromClient fromUpstream) :=
  fun _ => ⟨rfl, rfl, reading_holds⟩

theorem pipe_of_relay {fromClient fromUpstream : Bytes} {labels : List Label} {s : Relay}
    (runs : run relayStep (.start fromClient fromUpstream) labels = some s) :
    ∃ motions pipe,
      run (pipeStep false bufferSize) (freshPipe fromClient fromUpstream) motions = some pipe ∧
      Shows s pipe :=
  run_simulates Shows (fun _ _ _ _ shows taken => shows.step taken)
    (start_shows fromClient fromUpstream) runs

theorem relay_of_lanes {fromClient fromUpstream : Bytes} {motions : List (Socket × Motion)}
    {pipe : Socket → Lane UInt8}
    (lanes : ∀ socket, run (laneStep bufferSize) (freshPipe fromClient fromUpstream socket)
      (onLane socket motions) = some (pipe socket)) :
    ∃ labels s, run relayStep (.start fromClient fromUpstream) labels = some s ∧
      Shows s pipe ∧ Running s :=
  run_simulates (fun pipe s => Shows s pipe ∧ Running s)
    (fun _ _ _ _ related taken => exists_run_of_motion related.1 related.2 taken)
    ⟨start_shows fromClient fromUpstream, fun _ => rfl, fun _ => .reading⟩ (run_own_iff.mpr lanes)

/-- The relay does with the bytes what a pipe with a buffer for each direction
does: what it has read and written at any time of any run is reached by the
pipe; and for whatever each direction can do by itself, in every interleaving
of the two, there is a run of the relay that does it and goes on. -/
theorem go_relay_implements_pipe (fromClient fromUpstream : Bytes) :
    (∀ labels s, run relayStep (.start fromClient fromUpstream) labels = some s →
      ∃ motions pipe,
        run (pipeStep false bufferSize) (freshPipe fromClient fromUpstream) motions = some pipe ∧
        Shows s pipe) ∧
    (∀ motions pipe,
      (∀ socket, run (laneStep bufferSize) (freshPipe fromClient fromUpstream socket)
        (onLane socket motions) = some (pipe socket)) →
      ∃ labels s, run relayStep (.start fromClient fromUpstream) labels = some s ∧
        Shows s pipe ∧ Running s) :=
  ⟨fun _ _ => pipe_of_relay, fun _ _ => relay_of_lanes⟩

end TailcatSocks.Go
