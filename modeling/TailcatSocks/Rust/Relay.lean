import TailcatSocks.Library.Runs
import TailcatSocks.Library.Wire
import Mathlib.Logic.Function.Basic

/-!
# The Rust relay

Two pumps run in one task: `select!` polls them in turn, and when one returns
the other is dropped where it stands.  A label is what one pump does between
two awaits, the passing of a millisecond, or one of the two shutdowns.  Which
label comes next, how many bytes a read or a write moves, and when an operation
fails are free, so that a run is one interleaving.  An await need not suspend
the task: where it does is the subject of `RelayTask`.
-/

namespace TailcatSocks.Rust

open Library

/-- How a pump returns. -/
inductive End where
  | eof
  | readFailed
  | writeFailed
  | timedOut
  deriving DecidableEq, Repr

/-- Where a pump stands. -/
inductive Phase where
  /-- Not polled yet. -/
  | start
  /-- In `timeout(wait, rd.read(..))`; the timer may fire from `fireAt` on. -/
  | reading (deadline fireAt : Nat)
  /-- In `wr.write_all(..)`, with these bytes not yet written. -/
  | writing (pending : Bytes)
  | done (how : End)
  deriving DecidableEq, Repr

structure Pump where
  /-- What the peer still sends before it closes. -/
  source : Bytes
  sent : Bytes
  phase : Phase
  deriving DecidableEq, Repr

/-- The runtime's clock and the system's, in milliseconds, and the shared idle clock. -/
structure Clocks where
  now : Nat
  wall : Nat
  shared : Nat
  deriving DecidableEq, Repr

def u64Size : Nat := 18446744073709551616

def Clocks.nowMs (t : Clocks) : Nat := t.wall % u64Size

/-- `clock.load(..) + idle_ms`. -/
def Clocks.deadline (t : Clocks) (idle : Nat) : Nat := (t.shared + idle % u64Size) % u64Size

/-- The top of the loop: a deadline, and a read under a timer for the time left. -/
def arm (idle : Nat) (t : Clocks) : Phase :=
  .reading (t.deadline idle) (t.now + (t.deadline idle - t.nowMs))

/-- What a pump does between two awaits. -/
inductive Event where
  | start
  | read (count : Nat)
  | eof
  | readFail
  | fire
  | write (count : Nat)
  | writeFail
  deriving DecidableEq, Repr

def bufferSize : Nat := 65536

/-- One step of `pump`: the pump and the clocks after it. -/
def pumpStep (idle : Nat) (t : Clocks) (p : Pump) : Event → Option (Pump × Clocks)
  | .start =>
      match p.phase with
      | .start => some (⟨p.source, p.sent, arm idle t⟩, t)
      | _ => none
  | .read count =>
      match p.phase with
      | .reading _ _ =>
          if 0 < count ∧ count ≤ bufferSize ∧ count ≤ p.source.length then
            some (⟨p.source.drop count, p.sent, .writing (p.source.take count)⟩,
              ⟨t.now, t.wall, t.nowMs⟩)
          else none
      | _ => none
  | .eof =>
      match p.phase with
      | .reading _ _ => if p.source = [] then some (⟨p.source, p.sent, .done .eof⟩, t) else none
      | _ => none
  | .readFail =>
      match p.phase with
      | .reading _ _ => some (⟨p.source, p.sent, .done .readFailed⟩, t)
      | _ => none
  | .fire =>
      match p.phase with
      | .reading deadline fireAt =>
          if fireAt ≤ t.now then
            -- activity elsewhere extended the window
            if deadline < t.deadline idle then some (⟨p.source, p.sent, arm idle t⟩, t)
            else some (⟨p.source, p.sent, .done .timedOut⟩, t)
          else none
      | _ => none
  | .write count =>
      match p.phase with
      | .writing pending =>
          if 0 < count ∧ count ≤ pending.length then
            some (⟨p.source, p.sent ++ pending.take count,
              if pending.drop count = [] then arm idle t else .writing (pending.drop count)⟩, t)
          else none
      | _ => none
  | .writeFail =>
      match p.phase with
      | .writing _ => some (⟨p.source, p.sent, .done .writeFailed⟩, t)
      | _ => none

/-! ## Both pumps -/

/-- The direction of a pump: `down` carries the upstream's bytes to the client. -/
inductive Side where
  | down
  | up
  deriving DecidableEq, Repr

def Side.other : Side → Side
  | down => up
  | up => down

theorem Side.eq_other {side moved : Side} (different : side ≠ moved) : moved = side.other := by
  cases side <;> cases moved <;> first | rfl | exact absurd rfl different

theorem Side.other_ne (side : Side) : side.other ≠ side := by
  cases side <;> exact Side.noConfusion

/-- How far `relay` has come. -/
inductive Stage where
  | selecting
  | ended (side : Side)
  | clientShut
  | closed
  deriving DecidableEq, Repr

structure Relay where
  clocks : Clocks
  pumps : Side → Pump
  stage : Stage

inductive Label where
  | tick
  /-- The system clock is set. -/
  | adjust (wall : Nat)
  | pump (side : Side) (event : Event)
  | shutdownClient
  | shutdownUpstream
  deriving DecidableEq, Repr

/-- `select!` goes on until a pump returns. -/
def stageAfter (side : Side) : Phase → Stage
  | .done _ => .ended side
  | _ => .selecting

def relayStep (idle : Nat) (s : Relay) : Label → Option Relay
  | .tick => some { s with clocks := ⟨s.clocks.now + 1, s.clocks.wall + 1, s.clocks.shared⟩ }
  | .adjust wall => some { s with clocks := ⟨s.clocks.now, wall, s.clocks.shared⟩ }
  | .pump side event =>
      match s.stage with
      | .selecting =>
          match pumpStep idle s.clocks (s.pumps side) event with
          | some (p, clocks) =>
              some ⟨clocks, Function.update s.pumps side p, stageAfter side p.phase⟩
          | none => none
      | _ => none
  | .shutdownClient =>
      match s.stage with
      | .ended _ => some { s with stage := .clientShut }
      | _ => none
  | .shutdownUpstream =>
      match s.stage with
      | .clientShut => some { s with stage := .closed }
      | _ => none

/-- `relay` called when the client still sends `fromClient` and the upstream `fromUpstream`. -/
def Relay.start (now wall : Nat) (fromUpstream fromClient : Bytes) : Relay where
  clocks := ⟨now, wall, wall % u64Size⟩
  pumps
    | .down => ⟨fromUpstream, [], .start⟩
    | .up => ⟨fromClient, [], .start⟩
  stage := .selecting

/-! ## What a step can do -/

/-- The transitions of one pump. -/
inductive Pumped (idle : Nat) (t : Clocks) (p : Pump) : Event → Pump → Clocks → Prop where
  | start : p.phase = .start → Pumped idle t p .start ⟨p.source, p.sent, arm idle t⟩ t
  | read {deadline fireAt count : Nat} :
      p.phase = .reading deadline fireAt → 0 < count → count ≤ bufferSize →
      count ≤ p.source.length →
      Pumped idle t p (.read count)
        ⟨p.source.drop count, p.sent, .writing (p.source.take count)⟩ ⟨t.now, t.wall, t.nowMs⟩
  | eof {deadline fireAt : Nat} :
      p.phase = .reading deadline fireAt → p.source = [] →
      Pumped idle t p .eof ⟨p.source, p.sent, .done .eof⟩ t
  | readFail {deadline fireAt : Nat} :
      p.phase = .reading deadline fireAt →
      Pumped idle t p .readFail ⟨p.source, p.sent, .done .readFailed⟩ t
  | rearm {deadline fireAt : Nat} :
      p.phase = .reading deadline fireAt → fireAt ≤ t.now → deadline < t.deadline idle →
      Pumped idle t p .fire ⟨p.source, p.sent, arm idle t⟩ t
  | timeOut {deadline fireAt : Nat} :
      p.phase = .reading deadline fireAt → fireAt ≤ t.now → t.deadline idle ≤ deadline →
      Pumped idle t p .fire ⟨p.source, p.sent, .done .timedOut⟩ t
  | writePart {pending : Bytes} {count : Nat} :
      p.phase = .writing pending → 0 < count → pending.drop count ≠ [] →
      Pumped idle t p (.write count)
        ⟨p.source, p.sent ++ pending.take count, .writing (pending.drop count)⟩ t
  | writeAll {pending : Bytes} {count : Nat} :
      p.phase = .writing pending → 0 < count → pending.drop count = [] →
      Pumped idle t p (.write count) ⟨p.source, p.sent ++ pending, arm idle t⟩ t
  | writeFail {pending : Bytes} :
      p.phase = .writing pending →
      Pumped idle t p .writeFail ⟨p.source, p.sent, .done .writeFailed⟩ t

theorem pumped_of_pumpStep {idle : Nat} {t t' : Clocks} {p p' : Pump} {event : Event}
    (taken : pumpStep idle t p event = some (p', t')) : Pumped idle t p event p' t' := by
  cases event with
  | start =>
      simp only [pumpStep] at taken
      split at taken <;> cases taken
      exact .start ‹_›
  | read count =>
      simp only [pumpStep] at taken
      split at taken
      · split at taken <;> cases taken
        next waiting enabled => exact .read waiting enabled.1 enabled.2.1 enabled.2.2
      · cases taken
  | eof =>
      simp only [pumpStep] at taken
      split at taken
      · split at taken <;> cases taken
        exact .eof ‹_› ‹_›
      · cases taken
  | readFail =>
      simp only [pumpStep] at taken
      split at taken <;> cases taken
      exact .readFail ‹_›
  | fire =>
      simp only [pumpStep] at taken
      split at taken
      · next waiting =>
        split at taken
        · next fired =>
          split at taken <;> cases taken
          · exact .rearm waiting fired ‹_›
          · exact .timeOut waiting fired (Nat.not_lt.mp ‹_›)
        · cases taken
      · cases taken
  | write count =>
      simp only [pumpStep] at taken
      split at taken
      · next pending writing =>
        split at taken <;> cases taken
        next enabled =>
        by_cases last : pending.drop count = []
        · have whole := List.take_of_length_le (List.drop_eq_nil_iff.mp last)
          rw [if_pos last, whole]
          exact .writeAll writing enabled.1 last
        · rw [if_neg last]
          exact .writePart writing enabled.1 last
      · cases taken
  | writeFail =>
      simp only [pumpStep] at taken
      split at taken <;> cases taken
      exact .writeFail ‹_›

/-- The transitions of the relay. -/
inductive Relayed (idle : Nat) (s : Relay) : Label → Relay → Prop where
  | tick :
      Relayed idle s .tick
        ⟨⟨s.clocks.now + 1, s.clocks.wall + 1, s.clocks.shared⟩, s.pumps, s.stage⟩
  | adjust (wall : Nat) :
      Relayed idle s (.adjust wall) ⟨⟨s.clocks.now, wall, s.clocks.shared⟩, s.pumps, s.stage⟩
  | pump {side : Side} {event : Event} {p : Pump} {clocks : Clocks} :
      s.stage = .selecting → Pumped idle s.clocks (s.pumps side) event p clocks →
      Relayed idle s (.pump side event)
        ⟨clocks, Function.update s.pumps side p, stageAfter side p.phase⟩
  | shutdownClient {side : Side} :
      s.stage = .ended side → Relayed idle s .shutdownClient ⟨s.clocks, s.pumps, .clientShut⟩
  | shutdownUpstream :
      s.stage = .clientShut → Relayed idle s .shutdownUpstream ⟨s.clocks, s.pumps, .closed⟩

theorem relayed_of_relayStep {idle : Nat} {s next : Relay} {label : Label}
    (taken : relayStep idle s label = some next) : Relayed idle s label next := by
  cases label with
  | tick =>
      cases taken
      exact .tick
  | adjust wall =>
      cases taken
      exact .adjust wall
  | pump side event =>
      simp only [relayStep] at taken
      split at taken
      · next selecting =>
        split at taken
        · next p clocks pumped =>
          cases taken
          exact .pump selecting (pumped_of_pumpStep pumped)
        · cases taken
      · cases taken
  | shutdownClient =>
      simp only [relayStep] at taken
      split at taken <;> cases taken
      exact .shutdownClient ‹_›
  | shutdownUpstream =>
      simp only [relayStep] at taken
      split at taken <;> cases taken
      exact .shutdownUpstream ‹_›

/-- Milliseconds in which nothing else happens. -/
theorem run_ticks (idle : Nat) (s : Relay) (count : Nat) :
    ∃ next, run (relayStep idle) s (List.replicate count .tick) = some next ∧
      next.clocks.now = s.clocks.now + count ∧ next.clocks.shared = s.clocks.shared ∧
      next.pumps = s.pumps ∧ next.stage = s.stage := by
  induction count generalizing s with
  | zero => exact ⟨s, rfl, rfl, rfl, rfl, rfl⟩
  | succ count ih =>
      have ticks : relayStep idle s .tick = some _ := rfl
      obtain ⟨next, runs, later, shared, pumps, stage⟩ := ih _
      rw [List.replicate_succ, run_cons_of_step _ ticks]
      exact ⟨next, runs, later.trans (by dsimp only; omega), shared, pumps, stage⟩

/-! ## Bytes -/

/-- The bytes that a pump has read and not written: what it is writing, nothing
while it reads, and anything at all once a write has failed. -/
def Phase.Holds : Phase → Bytes → Prop
  | .writing pending, held => held = pending
  | .done .writeFailed, _ => True
  | _, held => held = []

theorem arm_holds (idle : Nat) (t : Clocks) : (arm idle t).Holds [] := rfl

/-- What was sent, what is held, and what is still to be read make up the
stream; and a pump returns `Ok` only at its end. -/
structure Conserves (stream : Bytes) (p : Pump) : Prop where
  kept : ∃ held, p.phase.Holds held ∧ stream = p.sent ++ held ++ p.source
  finished : p.phase = .done .eof → p.source = []
  pending : p.phase ≠ .writing []

theorem Conserves.of_held {stream source sent held : Bytes} {phase : Phase}
    (holds : phase.Holds held) (whole : stream = sent ++ held ++ source)
    (finished : phase = .done .eof → source = []) (pending : phase ≠ .writing []) :
    Conserves stream ⟨source, sent, phase⟩ :=
  ⟨⟨held, holds, whole⟩, finished, pending⟩

theorem Pumped.conserves {idle : Nat} {t t' : Clocks} {p p' : Pump} {event : Event}
    {stream : Bytes} (pumped : Pumped idle t p event p' t') (conserved : Conserves stream p) :
    Conserves stream p' := by
  obtain ⟨⟨held, holds, whole⟩, finished, pending⟩ := conserved
  cases pumped with
  | start starting =>
      rw [starting] at holds
      exact .of_held (arm_holds idle t) (holds ▸ whole) (fun h => by cases h) (fun h => by cases h)
  | read waiting positive _ enough =>
      rw [waiting] at holds
      obtain rfl : held = [] := holds
      refine .of_held rfl ?_ (fun h => by cases h) ?_
      · rw [whole, List.append_nil, List.append_assoc, List.take_append_drop]
      · intro empty
        rw [Phase.writing.injEq, List.take_eq_nil_iff] at empty
        rcases empty with zero | nothing
        · exact absurd zero positive.ne'
        · rw [nothing] at enough
          exact absurd enough (Nat.not_le.mpr positive)
  | eof waiting empty =>
      rw [waiting] at holds
      exact .of_held rfl (holds ▸ whole) (fun _ => empty) (fun h => by cases h)
  | readFail waiting =>
      rw [waiting] at holds
      exact .of_held rfl (holds ▸ whole) (fun h => by cases h) (fun h => by cases h)
  | rearm waiting _ _ =>
      rw [waiting] at holds
      exact .of_held (arm_holds idle t) (holds ▸ whole) (fun h => by cases h) (fun h => by cases h)
  | timeOut waiting _ _ =>
      rw [waiting] at holds
      exact .of_held rfl (holds ▸ whole) (fun h => by cases h) (fun h => by cases h)
  | @writePart front count writing _ more =>
      rw [writing] at holds
      obtain rfl : held = front := holds
      refine .of_held rfl ?_ (fun h => by cases h) (fun h => more (Phase.writing.inj h))
      rw [whole, List.append_assoc p.sent (held.take count), List.take_append_drop]
  | writeAll writing _ _ =>
      rw [writing] at holds
      obtain rfl := holds
      refine .of_held (arm_holds idle t) ?_ (fun h => by cases h) (fun h => by cases h)
      rw [whole, List.append_nil]
  | writeFail writing =>
      exact ⟨⟨held, trivial, whole⟩, (fun h => by cases h), (fun h => by cases h)⟩

theorem sent_isPrefix {stream : Bytes} {p : Pump} (conserved : Conserves stream p) :
    p.sent <+: stream := by
  obtain ⟨held, -, whole⟩ := conserved.kept
  exact ⟨held ++ p.source, by rw [whole, List.append_assoc]⟩

/-- A pump that returned `Ok` has sent its whole stream. -/
theorem sent_eq_of_eof {stream : Bytes} {p : Pump} (conserved : Conserves stream p)
    (finished : p.phase = .done .eof) : p.sent = stream := by
  obtain ⟨held, holds, whole⟩ := conserved.kept
  rw [finished] at holds
  obtain rfl : held = [] := holds
  rw [whole, conserved.finished finished, List.append_nil, List.append_nil]

/-- What the peer of a pump's reading end sends in all. -/
def streamOf (fromUpstream fromClient : Bytes) : Side → Bytes
  | .down => fromUpstream
  | .up => fromClient

theorem start_conserves (now wall : Nat) (fromUpstream fromClient : Bytes) (side : Side) :
    Conserves (streamOf fromUpstream fromClient side)
      ((Relay.start now wall fromUpstream fromClient).pumps side) := by
  cases side with
  | down => exact .of_held rfl rfl (fun h => by cases h) (fun h => by cases h)
  | up => exact .of_held rfl rfl (fun h => by cases h) (fun h => by cases h)

theorem Relayed.conserves {idle : Nat} {s next : Relay} {label : Label} {streams : Side → Bytes}
    (relayed : Relayed idle s label next)
    (conserved : ∀ side, Conserves (streams side) (s.pumps side)) (side : Side) :
    Conserves (streams side) (next.pumps side) := by
  cases relayed with
  | @pump moved event p clocks _ pumped =>
      exact (Function.forall_update_iff s.pumps fun side p => Conserves (streams side) p).mpr
        ⟨pumped.conserves (conserved moved), fun other _ => conserved other⟩ side
  | tick | adjust _ | shutdownClient _ | shutdownUpstream _ => exact conserved side

/-- Every interleaving conserves the bytes of both directions. -/
theorem run_conserves {idle now wall : Nat} {fromUpstream fromClient : Bytes}
    {labels : List Label} {s : Relay}
    (runs : run (relayStep idle) (.start now wall fromUpstream fromClient) labels = some s)
    (side : Side) : Conserves (streamOf fromUpstream fromClient side) (s.pumps side) :=
  run_invariant (fun s => ∀ side, Conserves (streamOf fromUpstream fromClient side) (s.pumps side))
    (start_conserves now wall fromUpstream fromClient)
    (fun _ _ _ conserved taken => (relayed_of_relayStep taken).conserves conserved) runs side

end TailcatSocks.Rust
