import TailcatSocks.Library.Runs
import TailcatSocks.Library.Wire
import Mathlib.Logic.Function.Basic

/-!
# The Go relay

Two goroutines copy, a timer that every read of real bytes arms again may fire,
and `relay` itself waits for both copies.  Whoever is first runs `stop`, the
others wait for it.  A label is one step of one of them; which comes next, how
many bytes a read or a write moves, and when an operation fails are free.

A copy is named after the socket that it reads.
-/

namespace TailcatSocks.Go

open Library

inductive Socket where
  | client
  | upstream
  deriving DecidableEq, Repr

def Socket.other : Socket → Socket
  | client => upstream
  | upstream => client

/-- What was done to a socket on this side. -/
structure SocketState where
  writeShut : Bool
  readShut : Bool
  closed : Bool
  deriving DecidableEq, Repr

inductive Call where
  | closeWrite
  | closeRead
  | close
  deriving DecidableEq, Repr

def SocketState.call (state : SocketState) : Call → SocketState
  | .closeWrite => ⟨true, state.readShut, state.closed⟩
  | .closeRead => ⟨state.writeShut, true, state.closed⟩
  | .close => ⟨state.writeShut, state.readShut, true⟩

def halfClose (socket : Socket) : List (Socket × Call) :=
  [(socket, .closeWrite), (socket, .closeRead)]

/-- The calls of `stop`, in order. -/
def stop : List (Socket × Call) :=
  halfClose .client ++ halfClose .upstream ++ [(.client, .close), (.upstream, .close)]

/-- How `io.Copy` returns. -/
inductive End where
  | eof
  /-- The end of input that `CloseRead` on this side makes. -/
  | shut
  | readFailed
  | writeFailed
  deriving DecidableEq, Repr

/-- `err != nil`. -/
def End.failed : End → Bool
  | .eof | .shut => false
  | .readFailed | .writeFailed => true

/-- Where a copying goroutine stands. -/
inductive Phase where
  | reading
  /-- Has read these bytes, about to call `onActivity`. -/
  | waking (chunk : Bytes)
  | writing (pending : Bytes)
  /-- `io.Copy` has returned. -/
  | returned (how : End)
  /-- `closeWrite` has been called. -/
  | flushed (how : End)
  /-- After `wg.Done()`. -/
  | done (how : End)
  deriving DecidableEq, Repr

/-- How `io.Copy` returned, once it has. -/
def Phase.how : Phase → Option End
  | .reading | .waking _ | .writing _ => none
  | .returned how | .flushed how | .done how => some how

structure Copy where
  /-- What the peer still sends before it closes. -/
  source : Bytes
  sent : Bytes
  phase : Phase
  deriving DecidableEq, Repr

/-- What a copying goroutine does next. -/
inductive CopyEvent where
  | read (count : Nat)
  | eof
  | readFail
  | wake
  | write (count : Nat)
  | writeFail
  | closeWrite
  | wgDone
  deriving DecidableEq, Repr

def bufferSize : Nat := 32768

/-- One step of a copying goroutine between two sockets. -/
def copyStep (source sink : SocketState) (c : Copy) : CopyEvent → Option Copy
  | .read count =>
      match c.phase with
      | .reading =>
          if source.closed = false ∧ 0 < count ∧ count ≤ bufferSize ∧ count ≤ c.source.length then
            some ⟨c.source.drop count, c.sent, .waking (c.source.take count)⟩
          else none
      | _ => none
  | .eof =>
      match c.phase with
      | .reading =>
          if source.closed = false then
            if c.source = [] then some ⟨c.source, c.sent, .returned .eof⟩
            else if source.readShut = true then some ⟨c.source, c.sent, .returned .shut⟩
            else none
          else none
      | _ => none
  | .readFail =>
      match c.phase with
      | .reading => some ⟨c.source, c.sent, .returned .readFailed⟩
      | _ => none
  | .wake =>
      match c.phase with
      | .waking chunk => some ⟨c.source, c.sent, .writing chunk⟩
      | _ => none
  | .write count =>
      match c.phase with
      | .writing pending =>
          if sink.writeShut = false ∧ sink.closed = false ∧ 0 < count ∧ count ≤ pending.length then
            some ⟨c.source, c.sent ++ pending.take count,
              if pending.drop count = [] then .reading else .writing (pending.drop count)⟩
          else none
      | _ => none
  | .writeFail =>
      match c.phase with
      | .writing _ => some ⟨c.source, c.sent, .returned .writeFailed⟩
      | _ => none
  | .closeWrite =>
      match c.phase with
      | .returned how =>
          if how.failed = false then some ⟨c.source, c.sent, .flushed how⟩ else none
      | _ => none
  | .wgDone =>
      match c.phase with
      | .returned how =>
          if how.failed = true then some ⟨c.source, c.sent, .done how⟩ else none
      | .flushed how => some ⟨c.source, c.sent, .done how⟩
      | _ => none

/-! ## Timer, teardown and both copies -/

/-- `once`, with the calls of `stop` that are still to be made. -/
inductive Once where
  | fresh
  | running (rest : List (Socket × Call))
  | complete
  deriving DecidableEq, Repr

/-- `once.Do(stop)`: the first caller runs `stop`. -/
def Once.doStop : Once → Once
  | .fresh => .running stop
  | once => once

/-- Where `relay` itself stands. -/
inductive Main where
  /-- In `wg.Wait()`. -/
  | waiting
  /-- In `once.Do(stop)`. -/
  | stopping
  | returned
  deriving DecidableEq, Repr

structure Relay where
  copies : Socket → Copy
  sockets : Socket → SocketState
  /-- `idleTimer` runs. -/
  armed : Bool
  /-- Firings that did not call `once.Do(stop)` yet. -/
  fired : Nat
  once : Once
  main : Main

inductive Label where
  | copy (socket : Socket) (event : CopyEvent)
  /-- The idle timer fires. -/
  | fire
  /-- A firing calls `once.Do(stop)`. -/
  | timerStop
  /-- `relay` does, after `wg.Wait()`. -/
  | mainStop
  /-- Whoever runs `stop` makes its next call. -/
  | stopCall
  /-- `relay` returns. -/
  | finish
  deriving DecidableEq, Repr

def Relay.perform (s : Relay) (socket : Socket) (call : Call) : Socket → SocketState :=
  Function.update s.sockets socket ((s.sockets socket).call call)

def Copy.isDone (c : Copy) : Bool :=
  match c.phase with
  | .done _ => true
  | _ => false

def relayStep (s : Relay) : Label → Option Relay
  | .copy socket event =>
      match copyStep (s.sockets socket) (s.sockets socket.other) (s.copies socket) event with
      | some c =>
          some { s with
            copies := Function.update s.copies socket c
            sockets := if event = .closeWrite then s.perform socket.other .closeWrite else s.sockets
            -- `idleTimer.Reset(idle)` arms a timer that has fired or was stopped, too
            armed := if event = .wake then true else s.armed }
      | none => none
  | .fire => if s.armed = true then some { s with armed := false, fired := s.fired + 1 } else none
  | .timerStop =>
      match s.fired with
      | fired + 1 => some { s with fired, once := s.once.doStop }
      | 0 => none
  | .mainStop =>
      if s.main = .waiting ∧ (s.copies .client).isDone = true ∧
          (s.copies .upstream).isDone = true then
        some { s with once := s.once.doStop, main := .stopping }
      else none
  | .stopCall =>
      match s.once with
      | .running ((socket, call) :: rest) =>
          some { s with
            sockets := s.perform socket call
            once := if rest = [] then .complete else .running rest }
      | _ => none
  | .finish =>
      if s.main = .stopping ∧ s.once = .complete then
        -- the deferred `idleTimer.Stop()`
        some { s with armed := false, main := .returned }
      else none

/-- What the peer of a socket sends in all. -/
def streamOf (fromClient fromUpstream : Bytes) : Socket → Bytes
  | .client => fromClient
  | .upstream => fromUpstream

/-- `relay` called when the client still sends `fromClient` and the upstream `fromUpstream`. -/
def Relay.start (fromClient fromUpstream : Bytes) : Relay where
  copies socket := ⟨streamOf fromClient fromUpstream socket, [], .reading⟩
  sockets _ := ⟨false, false, false⟩
  armed := true
  fired := 0
  once := .fresh
  main := .waiting

/-! ## What a step can do -/

/-- The transitions of a copying goroutine. -/
inductive Copied (source sink : SocketState) (c : Copy) : CopyEvent → Copy → Prop where
  | read {count : Nat} : c.phase = .reading → 0 < count → count ≤ c.source.length →
      Copied source sink c (.read count)
        ⟨c.source.drop count, c.sent, .waking (c.source.take count)⟩
  | eof : c.phase = .reading → c.source = [] →
      Copied source sink c .eof ⟨c.source, c.sent, .returned .eof⟩
  | shut : c.phase = .reading → source.readShut = true →
      Copied source sink c .eof ⟨c.source, c.sent, .returned .shut⟩
  | readFail : c.phase = .reading →
      Copied source sink c .readFail ⟨c.source, c.sent, .returned .readFailed⟩
  | wake {chunk : Bytes} : c.phase = .waking chunk →
      Copied source sink c .wake ⟨c.source, c.sent, .writing chunk⟩
  | writePart {pending : Bytes} {count : Nat} :
      c.phase = .writing pending → sink.writeShut = false →
      Copied source sink c (.write count)
        ⟨c.source, c.sent ++ pending.take count, .writing (pending.drop count)⟩
  | writeAll {pending : Bytes} {count : Nat} :
      c.phase = .writing pending → sink.writeShut = false →
      Copied source sink c (.write count) ⟨c.source, c.sent ++ pending, .reading⟩
  | writeFail {pending : Bytes} : c.phase = .writing pending →
      Copied source sink c .writeFail ⟨c.source, c.sent, .returned .writeFailed⟩
  | closeWrite {how : End} : c.phase = .returned how → how.failed = false →
      Copied source sink c .closeWrite ⟨c.source, c.sent, .flushed how⟩
  | giveUp {how : End} : c.phase = .returned how → how.failed = true →
      Copied source sink c .wgDone ⟨c.source, c.sent, .done how⟩
  | wgDone {how : End} : c.phase = .flushed how →
      Copied source sink c .wgDone ⟨c.source, c.sent, .done how⟩

theorem copied_of_copyStep {source sink : SocketState} {c c' : Copy} {event : CopyEvent}
    (taken : copyStep source sink c event = some c') : Copied source sink c event c' := by
  cases event with
  | read count =>
      simp only [copyStep] at taken
      split at taken
      · split at taken <;> cases taken
        next reading enabled => exact .read reading enabled.2.1 enabled.2.2.2
      · cases taken
  | eof =>
      simp only [copyStep] at taken
      split at taken
      · split at taken
        · split at taken
          · cases taken
            exact .eof ‹_› ‹_›
          · split at taken <;> cases taken
            exact .shut ‹_› ‹_›
        · cases taken
      · cases taken
  | readFail =>
      simp only [copyStep] at taken
      split at taken <;> cases taken
      exact .readFail ‹_›
  | wake =>
      simp only [copyStep] at taken
      split at taken <;> cases taken
      exact .wake ‹_›
  | write count =>
      simp only [copyStep] at taken
      split at taken
      · next pending writing =>
        split at taken <;> cases taken
        next enabled =>
        by_cases last : pending.drop count = []
        · have whole := List.take_of_length_le (List.drop_eq_nil_iff.mp last)
          rw [if_pos last, whole]
          exact .writeAll writing enabled.1
        · rw [if_neg last]
          exact .writePart writing enabled.1
      · cases taken
  | writeFail =>
      simp only [copyStep] at taken
      split at taken <;> cases taken
      exact .writeFail ‹_›
  | closeWrite =>
      simp only [copyStep] at taken
      split at taken
      · split at taken <;> cases taken
        exact .closeWrite ‹_› ‹_›
      · cases taken
  | wgDone =>
      simp only [copyStep] at taken
      split at taken
      · split at taken <;> cases taken
        exact .giveUp ‹_› ‹_›
      · cases taken
        exact .wgDone ‹_›
      · cases taken

/-- The transitions of the relay. -/
inductive Relayed (s : Relay) : Label → Relay → Prop where
  | copy {socket : Socket} {event : CopyEvent} {c : Copy} {armed : Bool} :
      Copied (s.sockets socket) (s.sockets socket.other) (s.copies socket) event c →
      event ≠ .closeWrite →
      Relayed s (.copy socket event)
        { s with copies := Function.update s.copies socket c, armed }
  | closeWrite {socket : Socket} {c : Copy} {armed : Bool} :
      Copied (s.sockets socket) (s.sockets socket.other) (s.copies socket) .closeWrite c →
      Relayed s (.copy socket .closeWrite)
        { s with
          copies := Function.update s.copies socket c
          sockets := s.perform socket.other .closeWrite
          armed }
  | fire : s.armed = true → Relayed s .fire { s with armed := false, fired := s.fired + 1 }
  | timerStop {fired : Nat} : s.fired = fired + 1 →
      Relayed s .timerStop { s with fired, once := s.once.doStop }
  | mainStop : s.main = .waiting → (∀ socket, (s.copies socket).isDone = true) →
      Relayed s .mainStop { s with once := s.once.doStop, main := .stopping }
  | stopCall {socket : Socket} {call : Call} {rest : List (Socket × Call)} :
      s.once = .running ((socket, call) :: rest) →
      Relayed s .stopCall
        { s with
          sockets := s.perform socket call
          once := if rest = [] then .complete else .running rest }
  | finish : s.main = .stopping → s.once = .complete →
      Relayed s .finish { s with armed := false, main := .returned }

theorem relayed_of_relayStep {s next : Relay} {label : Label}
    (taken : relayStep s label = some next) : Relayed s label next := by
  cases label with
  | copy socket event =>
      simp only [relayStep] at taken
      split at taken
      · next c copied =>
        cases taken
        by_cases closes : event = .closeWrite
        · subst closes
          exact .closeWrite (copied_of_copyStep copied)
        · rw [if_neg closes]
          exact .copy (copied_of_copyStep copied) closes
      · cases taken
  | fire =>
      simp only [relayStep] at taken
      split at taken <;> cases taken
      exact .fire ‹_›
  | timerStop =>
      simp only [relayStep] at taken
      split at taken <;> cases taken
      exact .timerStop ‹_›
  | mainStop =>
      simp only [relayStep] at taken
      split at taken <;> cases taken
      next enabled =>
      refine .mainStop enabled.1 fun socket => ?_
      cases socket with
      | client => exact enabled.2.1
      | upstream => exact enabled.2.2
  | stopCall =>
      simp only [relayStep] at taken
      split at taken <;> cases taken
      exact .stopCall ‹_›
  | finish =>
      simp only [relayStep] at taken
      split at taken <;> cases taken
      next enabled => exact .finish enabled.1 enabled.2

/-! ## Bytes -/

/-- The bytes that a copy has read and not written: a chunk before and while
it is written, nothing otherwise, and anything at all once a write has failed. -/
def Phase.Holds : Phase → Bytes → Prop
  | .waking chunk, held => held = chunk
  | .writing pending, held => held = pending
  | phase, held => phase.how = some .writeFailed ∨ held = []

theorem reading_holds : Phase.reading.Holds [] := .inr rfl

/-- What was sent, what is held, and what is still to be read make up the
stream; and its end is only read when nothing is left. -/
structure Conserves (stream : Bytes) (c : Copy) : Prop where
  kept : ∃ held, c.phase.Holds held ∧ stream = c.sent ++ held ++ c.source
  finished : c.phase.how = some .eof → c.source = []

theorem Copied.conserves {source sink : SocketState} {c c' : Copy} {event : CopyEvent}
    {stream : Bytes} (copied : Copied source sink c event c') (conserved : Conserves stream c) :
    Conserves stream c' := by
  obtain ⟨⟨held, holds, whole⟩, finished⟩ := conserved
  have empty (reading : c.phase = .reading) : held = [] := by
    rw [reading] at holds
    exact holds.resolve_left fun how => by cases how
  cases copied with
  | read reading _ _ =>
      obtain rfl := empty reading
      refine ⟨⟨_, rfl, ?_⟩, fun how => by cases how⟩
      rw [whole, List.append_nil, List.append_assoc, List.take_append_drop]
  | eof reading nothing => exact ⟨⟨[], .inr rfl, empty reading ▸ whole⟩, fun _ => nothing⟩
  | shut reading _ => exact ⟨⟨[], .inr rfl, empty reading ▸ whole⟩, fun how => by cases how⟩
  | readFail reading => exact ⟨⟨[], .inr rfl, empty reading ▸ whole⟩, fun how => by cases how⟩
  | wake waking =>
      rw [waking] at holds
      exact ⟨⟨held, holds, whole⟩, fun how => by cases how⟩
  | @writePart pending count writing _ =>
      rw [writing] at holds
      obtain rfl : held = pending := holds
      refine ⟨⟨_, rfl, ?_⟩, fun how => by cases how⟩
      rw [whole, List.append_assoc c.sent (held.take count), List.take_append_drop]
  | @writeAll pending count writing _ =>
      rw [writing] at holds
      obtain rfl : held = pending := holds
      refine ⟨⟨[], .inr rfl, ?_⟩, fun how => by cases how⟩
      rw [whole, List.append_nil]
  | writeFail _ => exact ⟨⟨held, .inl rfl, whole⟩, fun how => by cases how⟩
  | closeWrite phase _ | giveUp phase _ | wgDone phase =>
      rw [phase] at holds finished
      exact ⟨⟨held, holds, whole⟩, finished⟩

/-- A copy that read the end of its stream has sent all of it. -/
theorem sent_eq_of_eof {stream : Bytes} {c : Copy} (conserved : Conserves stream c)
    (eof : c.phase.how = some .eof) : c.sent = stream := by
  obtain ⟨held, holds, whole⟩ := conserved.kept
  have nothing : held = [] := by
    cases phase : c.phase <;> rw [phase] at holds eof <;> cases eof <;>
      exact holds.resolve_left fun how => by cases how
  rw [whole, nothing, conserved.finished eof, List.append_nil, List.append_nil]

theorem Relayed.conserves {s next : Relay} {label : Label} {streams : Socket → Bytes}
    (relayed : Relayed s label next)
    (conserved : ∀ socket, Conserves (streams socket) (s.copies socket)) (socket : Socket) :
    Conserves (streams socket) (next.copies socket) := by
  have moves {moved : Socket} {event : CopyEvent} {c : Copy}
      (copied : Copied (s.sockets moved) (s.sockets moved.other) (s.copies moved) event c) :
      Conserves (streams socket) (Function.update s.copies moved c socket) :=
    (Function.forall_update_iff s.copies fun socket c => Conserves (streams socket) c).mpr
      ⟨copied.conserves (conserved moved), fun other _ => conserved other⟩ socket
  cases relayed with
  | copy copied _ => exact moves copied
  | closeWrite copied => exact moves copied
  | fire _ | timerStop _ | mainStop _ _ | stopCall _ | finish _ _ => exact conserved socket

/-- Every interleaving conserves the bytes of both directions. -/
theorem run_conserves {fromClient fromUpstream : Bytes} {labels : List Label} {s : Relay}
    (runs : run relayStep (.start fromClient fromUpstream) labels = some s) (socket : Socket) :
    Conserves (streamOf fromClient fromUpstream socket) (s.copies socket) :=
  run_invariant
    (fun s => ∀ socket, Conserves (streamOf fromClient fromUpstream socket) (s.copies socket))
    (fun _ => ⟨⟨[], reading_holds, rfl⟩, fun how => by cases how⟩)
    (fun _ _ _ conserved taken => (relayed_of_relayStep taken).conserves conserved) runs socket

end TailcatSocks.Go
