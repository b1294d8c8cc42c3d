import TailcatSocks.Library.Pipe
import TailcatSocks.Library.Wire

/-!
# The Python relay

One thread waits for either socket in `select`, and then reads a chunk of each
that is readable and writes it to the other before it does anything else.  A
label is what the thread does between two system calls, or the passing of a
millisecond.  Which sockets are readable, how many bytes a read or a write
moves, and when a call fails are free.
-/

namespace TailcatSocks.Python

open Library

inductive Socket where
  | client
  | upstream
  deriving DecidableEq, Repr

instance : Fintype Socket := ⟨{.client, .upstream}, fun socket => by cases socket <;> decide⟩

def Socket.other : Socket → Socket
  | client => upstream
  | upstream => client

/-- `fds` -/
def fds : List Socket := [.client, .upstream]

/-- How `_relay` ends. -/
inductive Ending where
  /-- `select` returned nothing. -/
  | idle
  /-- An empty read from this socket: its peer has closed. -/
  | eof (socket : Socket)
  /-- A failed read, which counts as an empty one. -/
  | recvFailed
  | sendFailed
  /-- `select` raised, for a descriptor that it cannot watch. -/
  | raised
  deriving DecidableEq, Repr

inductive Call where
  /-- `shutdown(SHUT_RDWR)` -/
  | shutdown
  | close
  deriving DecidableEq, Repr

/-- The calls from the end of the loop to the end of `_handle`.  What is raised
leaves `_handle_inner` before it closes the upstream. -/
def wayOut : Ending → List (Socket × Call)
  | .eof _ | .recvFailed =>
      fds.map (fun x => (x, .shutdown)) ++ [(.upstream, .close), (.client, .close)]
  | .idle | .sendFailed => [(.upstream, .close), (.client, .close)]
  | .raised => [(.client, .close)]

inductive Stage where
  /-- In `for s in r`, with these sockets still to be served; at the loop's top when none is. -/
  | serving (rest : List Socket)
  /-- In `select.select(fds, [], [], 300)`. -/
  | selecting (fireAt : Nat)
  /-- In `peer.sendall(data)`, with these bytes of a chunk read from `s` not yet written. -/
  | sending (s : Socket) (pending : Bytes) (rest : List Socket)
  /-- Out of the loop, with these calls still to be made. -/
  | ended (how : Ending) (calls : List (Socket × Call))
  deriving DecidableEq, Repr

/-- One direction, named after the socket that it is read from. -/
structure Leg where
  /-- What the peer still sends before it closes. -/
  source : Bytes
  sent : Bytes
  deriving DecidableEq, Repr

structure Relay where
  /-- In milliseconds. -/
  now : Nat
  legs : Socket → Leg
  /-- The calls made on the way out. -/
  made : List (Socket × Call)
  stage : Stage

inductive RelayLabel where
  | tick
  | select
  /-- `select` returns these. -/
  | ready (r : List Socket)
  | timeout
  | selectRaises
  | recv (count : Nat)
  | recvEmpty
  | recvFail
  | send (count : Nat)
  | sendFail
  | call
  deriving DecidableEq, Repr

def bufferSize : Nat := 65536

def idleMs : Nat := 300000

def leave (s : Relay) (how : Ending) : Relay := { s with stage := .ended how (wayOut how) }

def relayStep (s : Relay) : RelayLabel → Option Relay
  | .tick => some { s with now := s.now + 1 }
  | .select =>
      match s.stage with
      | .serving [] => some { s with stage := .selecting (s.now + idleMs) }
      | _ => none
  | .ready r =>
      match s.stage with
      | .selecting _ =>
          if r ≠ [] ∧ r.isSublist fds then some { s with stage := .serving r } else none
      | _ => none
  | .timeout =>
      match s.stage with
      | .selecting fireAt => if fireAt ≤ s.now then some (leave s .idle) else none
      | _ => none
  | .selectRaises =>
      match s.stage with
      | .serving [] => some (leave s .raised)
      | _ => none
  | .recv count =>
      match s.stage with
      | .serving (x :: rest) =>
          if 0 < count ∧ count ≤ bufferSize ∧ count ≤ (s.legs x).source.length then
            some { s with
              legs := Function.update s.legs x ⟨(s.legs x).source.drop count, (s.legs x).sent⟩
              stage := .sending x ((s.legs x).source.take count) rest }
          else none
      | _ => none
  | .recvEmpty =>
      match s.stage with
      | .serving (x :: _) => if (s.legs x).source = [] then some (leave s (.eof x)) else none
      | _ => none
  | .recvFail =>
      match s.stage with
      | .serving (_ :: _) => some (leave s .recvFailed)
      | _ => none
  | .send count =>
      match s.stage with
      | .sending x pending rest =>
          if 0 < count ∧ count ≤ pending.length then
            some { s with
              legs := Function.update s.legs x
                ⟨(s.legs x).source, (s.legs x).sent ++ pending.take count⟩
              stage :=
                if pending.drop count = [] then .serving rest
                else .sending x (pending.drop count) rest }
          else none
      | _ => none
  | .sendFail =>
      match s.stage with
      | .sending _ _ _ => some (leave s .sendFailed)
      | _ => none
  | .call =>
      match s.stage with
      | .ended how (call :: calls) =>
          some { s with made := s.made ++ [call], stage := .ended how calls }
      | _ => none

/-- What the peer of a socket sends in all. -/
def streamOf (fromClient fromUpstream : Bytes) : Socket → Bytes
  | .client => fromClient
  | .upstream => fromUpstream

/-- `_relay` called when the client still sends `fromClient` and the upstream `fromUpstream`. -/
def Relay.start (now : Nat) (fromClient fromUpstream : Bytes) : Relay where
  now := now
  legs socket := ⟨streamOf fromClient fromUpstream socket, []⟩
  made := []
  stage := .serving []

/-! ## What a step can do -/

inductive Relayed (s : Relay) : RelayLabel → Relay → Prop where
  | tick : Relayed s .tick { s with now := s.now + 1 }
  | select : s.stage = .serving [] →
      Relayed s .select { s with stage := .selecting (s.now + idleMs) }
  | ready {fireAt : Nat} {r : List Socket} : s.stage = .selecting fireAt →
      Relayed s (.ready r) { s with stage := .serving r }
  | timeout {fireAt : Nat} : s.stage = .selecting fireAt → fireAt ≤ s.now →
      Relayed s .timeout (leave s .idle)
  | selectRaises : s.stage = .serving [] → Relayed s .selectRaises (leave s .raised)
  | recv {x : Socket} {rest : List Socket} {count : Nat} :
      s.stage = .serving (x :: rest) → 0 < count → count ≤ bufferSize →
      count ≤ (s.legs x).source.length →
      Relayed s (.recv count)
        { s with
          legs := Function.update s.legs x ⟨(s.legs x).source.drop count, (s.legs x).sent⟩
          stage := .sending x ((s.legs x).source.take count) rest }
  | recvEmpty {x : Socket} {rest : List Socket} :
      s.stage = .serving (x :: rest) → (s.legs x).source = [] →
      Relayed s .recvEmpty (leave s (.eof x))
  | recvFail {x : Socket} {rest : List Socket} :
      s.stage = .serving (x :: rest) → Relayed s .recvFail (leave s .recvFailed)
  | send {x : Socket} {pending : Bytes} {rest : List Socket} {count : Nat} :
      s.stage = .sending x pending rest → 0 < count → count ≤ pending.length →
      Relayed s (.send count)
        { s with
          legs := Function.update s.legs x
            ⟨(s.legs x).source, (s.legs x).sent ++ pending.take count⟩
          stage :=
            if pending.drop count = [] then .serving rest
            else .sending x (pending.drop count) rest }
  | sendFail {x : Socket} {pending : Bytes} {rest : List Socket} :
      s.stage = .sending x pending rest → Relayed s .sendFail (leave s .sendFailed)
  | call {how : Ending} {call : Socket × Call} {calls : List (Socket × Call)} :
      s.stage = .ended how (call :: calls) →
      Relayed s .call { s with made := s.made ++ [call], stage := .ended how calls }

theorem relayed_of_relayStep {s next : Relay} {label : RelayLabel}
    (taken : relayStep s label = some next) : Relayed s label next := by
  cases label with
  | tick =>
      cases taken
      exact .tick
  | select =>
      simp only [relayStep] at taken
      split at taken <;> cases taken
      exact .select ‹_›
  | ready r =>
      simp only [relayStep] at taken
      split at taken
      · split at taken <;> cases taken
        exact .ready ‹_›
      · cases taken
  | timeout =>
      simp only [relayStep] at taken
      split at taken
      · split at taken <;> cases taken
        exact .timeout ‹_› ‹_›
      · cases taken
  | selectRaises =>
      simp only [relayStep] at taken
      split at taken <;> cases taken
      exact .selectRaises ‹_›
  | recv count =>
      simp only [relayStep] at taken
      split at taken
      · next serving =>
        split at taken <;> cases taken
        next enabled => exact .recv serving enabled.1 enabled.2.1 enabled.2.2
      · cases taken
  | recvEmpty =>
      simp only [relayStep] at taken
      split at taken
      · split at taken <;> cases taken
        exact .recvEmpty ‹_› ‹_›
      · cases taken
  | recvFail =>
      simp only [relayStep] at taken
      split at taken <;> cases taken
      exact .recvFail ‹_›
  | send count =>
      simp only [relayStep] at taken
      split at taken
      · next sending =>
        split at taken <;> cases taken
        next enabled => exact .send sending enabled.1 enabled.2
      · cases taken
  | sendFail =>
      simp only [relayStep] at taken
      split at taken <;> cases taken
      exact .sendFail ‹_›
  | call =>
      simp only [relayStep] at taken
      split at taken <;> cases taken
      exact .call ‹_›


/-! ## The pipe with one buffer -/

/-- The bytes of a leg that have been read and not written: those of the chunk
in hand, and anything at all once a write has failed. -/
def Stage.Holds : Stage → Socket → Bytes → Prop
  | .sending x pending _, socket, held => held = if socket = x then pending else []
  | .ended .sendFailed _, _, _ => True
  | _, _, held => held = []

structure LegShows (leg : Leg) (stage : Stage) (socket : Socket) (lane : Lane UInt8) : Prop where
  source : lane.source = leg.source
  sent : lane.sent = leg.sent
  held : stage.Holds socket lane.held

/-- The lanes of a pipe are the legs of the relay. -/
def Shows (s : Relay) (pipe : Socket → Lane UInt8) : Prop :=
  ∀ socket, LegShows (s.legs socket) s.stage socket (pipe socket)

/-- The pipe that `_relay` finds. -/
def freshPipe (fromClient fromUpstream : Bytes) (socket : Socket) : Lane UInt8 :=
  .start (streamOf fromClient fromUpstream socket)

variable {s next : Relay} {label : RelayLabel} {pipe : Socket → Lane UInt8}

/-- A change of the stage that needs no motion. -/
theorem Shows.of_stage (shows : Shows s pipe) {now : Nat} {made : List (Socket × Call)}
    {stage : Stage} (kept : ∀ socket held, s.stage.Holds socket held → stage.Holds socket held) :
    Shows ⟨now, s.legs, made, stage⟩ pipe := fun socket =>
  ⟨(shows socket).source, (shows socket).sent, kept socket _ (shows socket).held⟩

/-- A motion on one leg. -/
theorem Shows.update (shows : Shows s pipe) {x : Socket} {leg : Leg} {lane : Lane UInt8}
    {now : Nat} {made : List (Socket × Call)} {stage : Stage} (moved : LegShows leg stage x lane)
    (others : ∀ socket, socket ≠ x → stage.Holds socket (pipe socket).held) :
    Shows ⟨now, Function.update s.legs x leg, made, stage⟩ (Function.update pipe x lane) := by
  intro socket
  change LegShows (Function.update s.legs x leg socket) stage socket
    (Function.update pipe x lane socket)
  by_cases here : socket = x
  · subst here
    rw [Function.update_self, Function.update_self]
    exact moved
  · rw [Function.update_of_ne here, Function.update_of_ne here]
    exact ⟨(shows socket).source, (shows socket).sent, others socket here⟩

theorem Shows.held_of_serving (shows : Shows s pipe) {rest : List Socket}
    (serving : s.stage = .serving rest) (socket : Socket) : (pipe socket).held = [] := by
  have held := (shows socket).held
  rw [serving] at held
  exact held

theorem Shows.held_of_sending (shows : Shows s pipe) {x : Socket} {pending : Bytes}
    {rest : List Socket} (sending : s.stage = .sending x pending rest) (socket : Socket) :
    (pipe socket).held = if socket = x then pending else [] := by
  have held := (shows socket).held
  rw [sending] at held
  exact held

/-- The stage after a part of a chunk has been written. -/
theorem holds_afterSend (x : Socket) (more : Bytes) (rest : List Socket) (socket : Socket) :
    (if more = [] then Stage.serving rest else .sending x more rest).Holds socket
      (if socket = x then more else []) := by
  split
  · next drained =>
    rw [drained, ite_self]
    exact rfl
  · exact rfl

/-- A chunk is read, where none is in hand. -/
theorem Shows.recv (shows : Shows s pipe) (empty : ∀ socket, (pipe socket).held = [])
    (x : Socket) (count : Nat) (rest : List Socket) :
    Shows ⟨s.now, Function.update s.legs x ⟨(s.legs x).source.drop count, (s.legs x).sent⟩, s.made,
        .sending x ((s.legs x).source.take count) rest⟩
      (Function.update pipe x
        ⟨(pipe x).source.drop count, (pipe x).source.take count, (pipe x).sent⟩) := by
  refine shows.update ⟨?_, (shows x).sent, ?_⟩ fun socket other => ?_
  · rw [(shows x).source]
  · rw [(shows x).source]
    exact (if_pos rfl).symm
  · exact (empty socket).trans (if_neg other).symm

/-- A part of the chunk in hand is written. -/
theorem Shows.send (shows : Shows s pipe) {x : Socket} {pending : Bytes}
    (held : ∀ socket, (pipe socket).held = if socket = x then pending else []) (count : Nat)
    (rest : List Socket) :
    Shows ⟨s.now,
        Function.update s.legs x ⟨(s.legs x).source, (s.legs x).sent ++ pending.take count⟩, s.made,
        if pending.drop count = [] then .serving rest else .sending x (pending.drop count) rest⟩
      (Function.update pipe x ⟨(pipe x).source, (pipe x).held.drop count,
        (pipe x).sent ++ (pipe x).held.take count⟩) := by
  have whole : (pipe x).held = pending := (held x).trans (if_pos rfl)
  refine shows.update ⟨(shows x).source, ?_, ?_⟩ fun socket other => ?_
  · rw [(shows x).sent, whole]
  · have after := holds_afterSend x (pending.drop count) rest x
    rw [if_pos rfl] at after
    rw [whole]
    exact after
  · have after := holds_afterSend x (pending.drop count) rest socket
    rw [if_neg other] at after
    rw [held socket, if_neg other]
    exact after

/-- Every step of the relay is a motion of the pipe, or none. -/
theorem Relayed.shows (relayed : Relayed s label next) (shows : Shows s pipe) :
    ∃ motions pipe', run (pipeStep true bufferSize) pipe motions = some pipe' ∧
      Shows next pipe' := by
  cases relayed with
  | tick => exact ⟨[], pipe, rfl, shows.of_stage fun _ _ holds => holds⟩
  | select serving | selectRaises serving =>
      refine ⟨[], pipe, rfl, shows.of_stage fun socket held holds => ?_⟩
      rw [serving] at holds
      exact holds
  | ready selecting | timeout selecting _ =>
      refine ⟨[], pipe, rfl, shows.of_stage fun socket held holds => ?_⟩
      rw [selecting] at holds
      exact holds
  | recvEmpty serving _ | recvFail serving =>
      refine ⟨[], pipe, rfl, shows.of_stage fun socket held holds => ?_⟩
      rw [serving] at holds
      exact holds
  | sendFail _ => exact ⟨[], pipe, rfl, shows.of_stage fun _ _ _ => trivial⟩
  | @call how call calls ended =>
      refine ⟨[], pipe, rfl, shows.of_stage fun socket held holds => ?_⟩
      rw [ended] at holds
      cases how <;> exact holds
  | @recv x rest count serving positive small enough =>
      have empty := shows.held_of_serving serving
      have taken := pipeStep_take true (empty x) (fun _ => empty) positive small
        ((shows x).source ▸ enough)
      exact ⟨[(x, .take count)], _, run_cons_of_step [] taken, shows.recv empty x count rest⟩
  | @send x pending rest count sending positive enough =>
      have held := shows.held_of_sending sending
      have whole : (pipe x).held = pending := (held x).trans (if_pos rfl)
      have taken := pipeStep_give true bufferSize positive
        (whole.symm ▸ enough : count ≤ (pipe x).held.length)
      exact ⟨[(x, .give count)], _, run_cons_of_step [] taken, shows.send held count rest⟩

/-- The relay is at the top of its loop, or has only this chunk in hand. -/
def Stage.Poised (stage : Stage) : Prop :=
  stage = .serving [] ∨ ∃ x pending, stage = .sending x pending [] ∧ pending ≠ []

/-- Every motion of the pipe is made by some steps of the relay. -/
theorem exists_run_of_motion {motion : Socket × Motion} {pipe' : Socket → Lane UInt8}
    (shows : Shows s pipe) (poised : s.stage.Poised)
    (taken : pipeStep true bufferSize pipe motion = some pipe') :
    ∃ labels next, run relayStep s labels = some next ∧ Shows next pipe' ∧ next.stage.Poised := by
  obtain ⟨x, motion⟩ := motion
  obtain ⟨lane, moved, rfl⟩ := moved_of_pipeStep taken
  obtain ⟨now, legs, made, stage⟩ := s
  cases moved with
  | @take count _ positive small enough =>
      have empty := held_of_take taken
      obtain rfl : stage = .serving [] := by
        refine poised.resolve_right ?_
        rintro ⟨x, pending, rfl, more⟩
        exact more ((if_pos rfl).symm.trans ((shows x).held.symm.trans (empty x)))
      have room : count ≤ (legs x).source.length := (shows x).source ▸ enough
      have readable : [x] ≠ [] ∧ [x].isSublist fds := by
        cases x <;> exact ⟨List.cons_ne_nil _ _, rfl⟩
      have goes : run relayStep ⟨now, legs, made, .serving []⟩ [.select, .ready [x], .recv count] =
          some ⟨now, Function.update legs x ⟨(legs x).source.drop count, (legs x).sent⟩, made,
            .sending x ((legs x).source.take count) []⟩ := by
        rw [run_cons_of_step _ rfl, run_cons_of_step _ (if_pos readable)]
        exact run_cons_of_step [] (if_pos ⟨positive, small, room⟩)
      refine ⟨_, _, goes, shows.recv empty x count [], .inr ⟨x, _, rfl, ?_⟩⟩
      rw [← List.length_pos_iff, List.length_take, Nat.min_eq_left room]
      exact positive
  | @give count positive enough =>
      have some_held : (pipe x).held ≠ [] := List.length_pos_iff.mp (positive.trans_le enough)
      obtain ⟨y, pending, rfl, -⟩ := poised.resolve_left (by
        rintro rfl
        exact some_held (shows x).held)
      have held : ∀ socket, (pipe socket).held = if socket = y then pending else [] :=
        fun socket => (shows socket).held
      obtain rfl : x = y := by
        by_contra other
        exact some_held ((held x).trans (if_neg other))
      have whole : (pipe x).held = pending := (held x).trans (if_pos rfl)
      rw [whole] at enough
      have goes : run relayStep ⟨now, legs, made, .sending x pending []⟩ [.send count] =
          some ⟨now, Function.update legs x ⟨(legs x).source, (legs x).sent ++ pending.take count⟩,
            made, if pending.drop count = [] then .serving []
              else .sending x (pending.drop count) []⟩ :=
        run_cons_of_step [] (if_pos ⟨positive, enough⟩)
      refine ⟨_, _, goes, shows.send held count [], ?_⟩
      dsimp only
      split
      · exact .inl rfl
      · exact .inr ⟨x, _, rfl, ‹_›⟩

theorem start_shows (now : Nat) (fromClient fromUpstream : Bytes) :
    Shows (.start now fromClient fromUpstream) (freshPipe fromClient fromUpstream) :=
  fun _ => ⟨rfl, rfl, rfl⟩

theorem pipe_of_relay {now : Nat} {fromClient fromUpstream : Bytes} {labels : List RelayLabel}
    (runs : run relayStep (.start now fromClient fromUpstream) labels = some s) :
    ∃ motions pipe,
      run (pipeStep true bufferSize) (freshPipe fromClient fromUpstream) motions = some pipe ∧
      Shows s pipe :=
  run_simulates Shows (fun _ _ _ _ shows taken => (relayed_of_relayStep taken).shows shows)
    (start_shows now fromClient fromUpstream) runs

theorem relay_of_pipe (now : Nat) {fromClient fromUpstream : Bytes}
    {motions : List (Socket × Motion)} {pipe : Socket → Lane UInt8}
    (runs : run (pipeStep true bufferSize) (freshPipe fromClient fromUpstream) motions =
      some pipe) :
    ∃ labels s, run relayStep (.start now fromClient fromUpstream) labels = some s ∧
      Shows s pipe ∧ s.stage.Poised :=
  run_simulates (fun pipe s => Shows s pipe ∧ s.stage.Poised)
    (fun _ _ _ _ related taken => exists_run_of_motion related.1 related.2 taken)
    ⟨start_shows now fromClient fromUpstream, .inl rfl⟩ runs

/-- The relay does with the bytes what a pipe with one buffer for both
directions does, no more and no less: what it has read and written at any time
of any run is reached by the pipe, and what the pipe reaches is reached by a
relay that goes on. -/
theorem python_relay_implements_pipe (now : Nat) (fromClient fromUpstream : Bytes) :
    (∀ labels s, run relayStep (.start now fromClient fromUpstream) labels = some s →
      ∃ motions pipe,
        run (pipeStep true bufferSize) (freshPipe fromClient fromUpstream) motions = some pipe ∧
        Shows s pipe) ∧
    (∀ motions pipe,
      run (pipeStep true bufferSize) (freshPipe fromClient fromUpstream) motions = some pipe →
      ∃ labels s, run relayStep (.start now fromClient fromUpstream) labels = some s ∧
        Shows s pipe ∧ s.stage.Poised) :=
  ⟨fun _ _ => pipe_of_relay, fun _ _ => relay_of_pipe now⟩

/-- Nothing is lost or doubled in either direction; and of both directions
together no more than one chunk is in hand. -/
theorem run_conserves {now : Nat} {fromClient fromUpstream : Bytes} {labels : List RelayLabel}
    (runs : run relayStep (.start now fromClient fromUpstream) labels = some s) :
    ∃ held : Socket → Bytes,
      (∀ socket, streamOf fromClient fromUpstream socket =
        (s.legs socket).sent ++ held socket ++ (s.legs socket).source ∧
        (held socket).length ≤ bufferSize) ∧
      (held .client = [] ∨ held .upstream = []) := by
  obtain ⟨motions, pipe, reaches, shows⟩ := pipe_of_relay runs
  refine ⟨fun socket => (pipe socket).held, fun socket => ⟨?_, ?_⟩, ?_⟩
  · rw [← (shows socket).sent, ← (shows socket).source]
    exact (run_stream_eq reaches socket).symm
  · exact run_held_le (fun _ => Nat.zero_le _) reaches socket
  · exact run_shared_held (fun _ => rfl) reaches (show Socket.client ≠ .upstream by decide)

theorem sent_isPrefix {now : Nat} {fromClient fromUpstream : Bytes} {labels : List RelayLabel}
    (runs : run relayStep (.start now fromClient fromUpstream) labels = some s) (socket : Socket) :
    (s.legs socket).sent <+: streamOf fromClient fromUpstream socket := by
  obtain ⟨held, whole, -⟩ := run_conserves runs
  exact ⟨held socket ++ (s.legs socket).source,
    by rw [(whole socket).1, List.append_assoc]⟩

/-! ## The end of the relay -/

/-- What has been called is the beginning of the way out; and an end of input
was read from a socket that has nothing left. -/
def OnWay (s : Relay) : Prop :=
  match s.stage with
  | .ended how calls =>
      s.made ++ calls = wayOut how ∧ ∀ x, how = .eof x → (s.legs x).source = []
  | _ => s.made = []

theorem Relayed.onWay (relayed : Relayed s label next) (onWay : OnWay s) : OnWay next := by
  unfold OnWay at onWay
  cases relayed with
  | tick => exact onWay
  | select serving =>
      rw [serving] at onWay
      exact onWay
  | ready selecting =>
      rw [selecting] at onWay
      exact onWay
  | selectRaises serving | recvFail serving =>
      rw [serving] at onWay
      exact ⟨by rw [leave, onWay, List.nil_append], fun x eof => by cases eof⟩
  | timeout selecting _ =>
      rw [selecting] at onWay
      exact ⟨by rw [leave, onWay, List.nil_append], fun x eof => by cases eof⟩
  | recv serving _ _ _ =>
      rw [serving] at onWay
      exact onWay
  | recvEmpty serving empty =>
      rw [serving] at onWay
      refine ⟨by rw [leave, onWay, List.nil_append], fun x eof => ?_⟩
      cases eof
      exact empty
  | send sending _ _ =>
      rw [sending] at onWay
      unfold OnWay
      dsimp only
      split
      · next ended =>
        split at ended <;> cases ended
      · exact onWay
  | sendFail sending =>
      rw [sending] at onWay
      exact ⟨by rw [leave, onWay, List.nil_append], fun x eof => by cases eof⟩
  | call ended =>
      rw [ended] at onWay
      exact ⟨by rw [← onWay.1, List.append_assoc, List.singleton_append], onWay.2⟩

/-- Out of the loop nothing is read or written any more. -/
theorem Relayed.ended {how : Ending} {calls : List (Socket × Call)}
    (relayed : Relayed s label next) (ended : s.stage = .ended how calls) :
    next.legs = s.legs ∧ ∃ rest, next.stage = .ended how rest := by
  cases relayed with
  | tick => exact ⟨rfl, calls, ended⟩
  | select stage | ready stage | timeout stage _ | selectRaises stage | recv stage _ _ _
  | recvEmpty stage _ | recvFail stage | send stage _ _ | sendFail stage =>
      rw [stage] at ended
      cases ended
  | call stage =>
      rw [stage] at ended
      cases ended
      exact ⟨rfl, _, rfl⟩

theorem run_calls {how : Ending} {calls : List (Socket × Call)}
    (ended : s.stage = .ended how calls) :
    run relayStep s (List.replicate calls.length .call) =
      some { s with made := s.made ++ calls, stage := .ended how [] } := by
  induction calls generalizing s with
  | nil =>
      obtain ⟨now, legs, made, stage⟩ := s
      obtain rfl : stage = .ended how [] := ended
      rw [List.append_nil]
      rfl
  | cons call calls ih =>
      obtain ⟨now, legs, made, stage⟩ := s
      obtain rfl : stage = .ended how (call :: calls) := ended
      rw [List.length_cons, List.replicate_succ, run_cons_of_step _ rfl, ih rfl, List.append_assoc,
        List.singleton_append]

section Runs

variable {now : Nat} {fromClient fromUpstream : Bytes} {labels : List RelayLabel}

theorem run_onWay (runs : run relayStep (.start now fromClient fromUpstream) labels = some s) :
    OnWay s :=
  run_invariant OnWay (show OnWay (.start now fromClient fromUpstream) from rfl)
    (fun _ _ _ onWay taken => (relayed_of_relayStep taken).onWay onWay) runs

/-- Nothing of a stream is lost when its end has ended the relay. -/
theorem sent_eq_of_eof (runs : run relayStep (.start now fromClient fromUpstream) labels = some s)
    {x : Socket} {calls : List (Socket × Call)} (ended : s.stage = .ended (.eof x) calls) :
    (s.legs x).sent = streamOf fromClient fromUpstream x := by
  have onWay := run_onWay runs
  rw [OnWay, ended] at onWay
  obtain ⟨motions, pipe, reaches, shows⟩ := pipe_of_relay runs
  have held := (shows x).held
  rw [ended] at held
  rw [← (shows x).sent, Lane.sent_eq_stream held ((shows x).source.trans (onWay.2 x rfl)),
    run_stream_eq reaches x]
  rfl

/-- However the relay ends: the calls that are made and those that are still to
be made are those of that ending, and they can all be made; nothing is read or
written any more; and when it ends because a peer has closed, everything which
that peer sent has been written to the other one. -/
theorem relay_ends (runs : run relayStep (.start now fromClient fromUpstream) labels = some s)
    {how : Ending} {calls : List (Socket × Call)} (ended : s.stage = .ended how calls) :
    s.made ++ calls = wayOut how ∧
      (∃ later, run relayStep s (List.replicate calls.length .call) = some later ∧
        later.made = wayOut how) ∧
      (∀ more later, run relayStep s more = some later → later.legs = s.legs) ∧
      ∀ x, how = .eof x → (s.legs x).sent = streamOf fromClient fromUpstream x := by
  have onWay := run_onWay runs
  rw [OnWay, ended] at onWay
  refine ⟨onWay.1, ⟨_, run_calls ended, onWay.1⟩, ?_, ?_⟩
  · intro more later goes
    refine (run_invariant (fun later => later.legs = s.legs ∧ ∃ rest, later.stage = .ended how rest)
      ⟨rfl, calls, ended⟩ ?_ goes).1
    rintro state label next ⟨same, rest, stage⟩ taken
    obtain ⟨legs, stage'⟩ := (relayed_of_relayStep taken).ended stage
    exact ⟨legs.trans same, stage'⟩
  · rintro x rfl
    exact sent_eq_of_eof runs ended

/-- The client sends one byte and closes; the upstream's byte is not waited for. -/
theorem relay_ends_clientCloses :
    ∃ s, run relayStep (.start 0 [71] [79])
        [.select, .ready [.client], .recv 1, .send 1, .select, .ready [.client], .recvEmpty] =
          some s ∧
      s.made ++ wayOut (.eof .client) = wayOut (.eof .client) ∧ (s.legs .client).sent = [71] := by
  have runs : run relayStep (.start 0 [71] [79])
      [.select, .ready [.client], .recv 1, .send 1, .select, .ready [.client], .recvEmpty] =
        some _ := rfl
  obtain ⟨whole, -, -, sent⟩ := relay_ends runs rfl
  exact ⟨_, runs, whole, sent .client rfl⟩

/-! ## Silence -/

def RelayLabel.Moves : RelayLabel → Prop
  | .recv _ | .send _ => True
  | _ => False

/-- What a wait in `select` was set up after. -/
structure Timed (past : List (Relay × RelayLabel)) (s : Relay) : Prop where
  before : ∀ entry ∈ past, entry.1.now ≤ s.now
  silent : ∀ fireAt, s.stage = .selecting fireAt →
    fireAt ≤ s.now + idleMs ∧ ∀ entry ∈ past, entry.2.Moves → entry.1.now + idleMs ≤ fireAt

theorem Relayed.now_le (relayed : Relayed s label next) : s.now ≤ next.now := by
  cases relayed with
  | tick => exact Nat.le_succ _
  | _ => exact Nat.le_refl _

theorem Timed.step {past : List (Relay × RelayLabel)} (timed : Timed past s)
    (relayed : Relayed s label next) : Timed (past ++ [(s, label)]) next := by
  have before : ∀ entry ∈ past ++ [(s, label)], entry.1.now ≤ next.now := by
    refine List.forall_mem_append.mpr ⟨fun entry member => ?_, List.forall_mem_singleton.mpr ?_⟩
    · exact (timed.before entry member).trans relayed.now_le
    · exact relayed.now_le
  refine ⟨before, fun fireAt selecting => ?_⟩
  cases relayed with
  | tick =>
      obtain ⟨soon, quiet⟩ := timed.silent fireAt selecting
      refine ⟨soon.trans (Nat.add_le_add_right (Nat.le_succ _) _), List.forall_mem_append.mpr
        ⟨quiet, List.forall_mem_singleton.mpr False.elim⟩⟩
  | select _ =>
      cases selecting
      exact ⟨Nat.le_refl _, fun entry member _ => Nat.add_le_add_right (before entry member) _⟩
  | send _ _ _ =>
      dsimp only at selecting
      split at selecting <;> cases selecting
  | call ended | ready ended | timeout ended _ | selectRaises ended | recv ended _ _ _
  | recvEmpty ended _ | recvFail ended | sendFail ended => cases selecting

theorem run_timed (runs : run relayStep (.start now fromClient fromUpstream) labels = some s) :
    Timed (history relayStep (.start now fromClient fromUpstream) labels) s :=
  run_induction Timed
    ⟨fun _ member => absurd member List.not_mem_nil, fun _ selecting => by cases selecting⟩
    (fun _ _ _ _ timed taken => timed.step (relayed_of_relayStep taken)) runs

/-- Milliseconds in which nothing else happens. -/
theorem relayStep_ticks (s : Relay) (count : Nat) :
    run relayStep s (List.replicate count .tick) = some { s with now := s.now + count } := by
  induction count generalizing s with
  | zero => rfl
  | succ count ih =>
      rw [List.replicate_succ, run_cons_of_step _ rfl, ih, Nat.add_assoc, Nat.add_comm 1]

/-- A wait in `select` ends the relay only when nothing has been read or
written in either direction for 300 seconds; and when nothing happens it does,
with the upstream closed and then the client. -/
theorem relay_idle (runs : run relayStep (.start now fromClient fromUpstream) labels = some s)
    {fireAt : Nat} (selecting : s.stage = .selecting fireAt) :
    (∀ next, relayStep s .timeout = some next →
      ∀ entry ∈ history relayStep (.start now fromClient fromUpstream) labels,
        entry.2.Moves → entry.1.now + idleMs ≤ s.now) ∧
    fireAt ≤ s.now + idleMs ∧
    ∃ later,
      run relayStep s (List.replicate (fireAt - s.now) .tick ++ [.timeout, .call, .call]) =
        some later ∧
      later.legs = s.legs ∧ later.made = [(.upstream, .close), (.client, .close)] := by
  obtain ⟨soon, quiet⟩ := (run_timed runs).silent fireAt selecting
  refine ⟨fun next fires entry member moves => ?_, soon, ?_⟩
  · refine (quiet entry member moves).trans ?_
    cases relayed_of_relayStep fires with
    | timeout selecting' due =>
        rw [selecting] at selecting'
        cases selecting'
        exact due
  · have nothing := run_onWay runs
    rw [OnWay, selecting] at nothing
    obtain ⟨t, legs, made, stage⟩ := s
    obtain rfl : stage = .selecting fireAt := selecting
    obtain rfl : made = [] := nothing
    have due : fireAt ≤ t + (fireAt - t) := by omega
    refine ⟨⟨t + (fireAt - t), legs, [(.upstream, .close), (.client, .close)], .ended .idle []⟩,
      ?_, rfl, rfl⟩
    rw [run_append (relayStep_ticks _ _), run_cons_of_step _ (if_pos due)]
    rfl

/-- Both peers are silent from the start. -/
theorem relay_idle_fromStart :
    ∃ s, run relayStep (.start 5 [71] [79]) [.select] = some s ∧ s.now = 5 ∧
      ∃ later, run relayStep s (List.replicate (300005 - s.now) .tick ++ [.timeout, .call, .call]) =
        some later ∧ later.legs = s.legs ∧
        later.made = [(.upstream, .close), (.client, .close)] := by
  have runs : run relayStep (.start 5 [71] [79]) [.select] = some _ := rfl
  obtain ⟨-, -, ends⟩ := relay_idle runs rfl
  exact ⟨_, runs, rfl, ends⟩

end Runs

/-! ## A reader that stalls -/

def RelayLabel.Sends : RelayLabel → Prop
  | .send _ => True
  | _ => False

/-- Until more of a chunk in hand is accepted, nothing moves in either direction. -/
theorem frozen_while_sending {x : Socket} {pending : Bytes} {rest : List Socket}
    {labels : List RelayLabel} {last : Relay} (sending : s.stage = .sending x pending rest)
    (stalls : ∀ label ∈ labels, ¬ label.Sends) (runs : run relayStep s labels = some last) :
    last.legs = s.legs := by
  refine (run_invariant_of_labels
    (fun later => later.legs = s.legs ∧
      (later.stage = .sending x pending rest ∨ ∃ how calls, later.stage = .ended how calls))
    (fun label => ¬ label.Sends) ⟨rfl, .inl sending⟩ ?_ stalls runs).1
  rintro state label next ⟨same, here⟩ stalls taken
  have relayed := relayed_of_relayStep taken
  rcases here with sending | ⟨how, calls, ended⟩
  · cases relayed with
    | tick => exact ⟨same, .inl sending⟩
    | sendFail _ => exact ⟨same, .inr ⟨_, _, rfl⟩⟩
    | send _ _ _ => exact absurd trivial stalls
    | select stage | ready stage | timeout stage _ | selectRaises stage | recv stage _ _ _
    | recvEmpty stage _ | recvFail stage | call stage =>
        rw [stage] at sending
        cases sending
  · obtain ⟨legs, rest, ended⟩ := relayed.ended ended
    exact ⟨legs.trans same, .inr ⟨how, rest, ended⟩⟩

end TailcatSocks.Python
