import TailcatSocks.Library.Pipe
import TailcatSocks.Rust.Relay

/-!
# The Rust relay as a pipe

Each pump has a buffer of its own, so that neither direction waits for the
other: the relay does with the bytes what a pipe with a buffer for each lane does.
-/

namespace TailcatSocks.Rust

open Library

instance : Fintype Side := ⟨{.down, .up}, fun side => by cases side <;> decide⟩

structure PumpShows (p : Pump) (lane : Lane UInt8) : Prop where
  source : lane.source = p.source
  sent : lane.sent = p.sent
  held : p.phase.Holds lane.held

/-- The lanes of a pipe are the pumps of the relay. -/
def Shows (s : Relay) (pipe : Side → Lane UInt8) : Prop :=
  ∀ side, PumpShows (s.pumps side) (pipe side)

/-- The pipe that `relay` finds. -/
def freshPipe (fromUpstream fromClient : Bytes) (side : Side) : Lane UInt8 :=
  .start (streamOf fromUpstream fromClient side)

/-! ## One pump -/

section Pumps

variable {idle : Nat} {t t' : Clocks} {p p' : Pump} {event : Event} {lane lane' : Lane UInt8}

theorem PumpShows.of_phase (shows : PumpShows p lane) {phase : Phase}
    (kept : p.phase.Holds lane.held → phase.Holds lane.held) :
    PumpShows ⟨p.source, p.sent, phase⟩ lane := ⟨shows.source, shows.sent, kept shows.held⟩

/-- Every step of a pump is made by some motions of its lane. -/
theorem Pumped.shows (pumped : Pumped idle t p event p' t') (shows : PumpShows p lane) :
    ∃ motions lane', run (laneStep bufferSize) lane motions = some lane' ∧ PumpShows p' lane' := by
  have held := shows.held
  cases pumped with
  | start phase | eof phase _ | readFail phase | rearm phase _ _ | timeOut phase _ _ =>
      rw [phase] at held
      exact ⟨[], lane, rfl, shows.of_phase fun _ => held⟩
  | writeFail _ => exact ⟨[], lane, rfl, shows.of_phase fun _ => trivial⟩
  | @read deadline fireAt count phase positive small enough =>
      rw [phase] at held
      have taken := laneStep_eq_some.mpr
        (Lane.Moved.take held positive small (shows.source ▸ enough))
      refine ⟨[.take count], _, run_cons_of_step [] taken, ?_, shows.sent, ?_⟩
      · rw [shows.source]
      · rw [shows.source]
        exact rfl
  | @writePart pending count phase _ _ =>
      rw [phase] at held
      obtain rfl : lane.held = pending := held
      obtain ⟨motions, runs⟩ := exists_give bufferSize count lane
      exact ⟨motions, _, runs, shows.source, by rw [shows.sent], rfl⟩
  | @writeAll pending count phase _ whole =>
      rw [phase] at held
      obtain rfl : lane.held = pending := held
      obtain ⟨motions, runs⟩ := exists_give bufferSize count lane
      have all := List.take_of_length_le (List.drop_eq_nil_iff.mp whole)
      rw [whole, all] at runs
      exact ⟨motions, _, runs, shows.source, by rw [shows.sent], arm_holds idle t⟩

/-- A pump that is waiting for a read, or has something to write. -/
inductive Phase.Running : Phase → Prop where
  | reading (deadline fireAt : Nat) : Running (.reading deadline fireAt)
  | writing {pending : Bytes} : pending ≠ [] → Running (.writing pending)

theorem stageAfter_of_running {phase : Phase} (running : phase.Running) (side : Side) :
    stageAfter side phase = .selecting := by
  cases running <;> rfl

/-- Every motion of its lane is a step of a running pump. -/
theorem exists_step_of_motion {motion : Motion} (idle : Nat) (t : Clocks) (shows : PumpShows p lane)
    (running : p.phase.Running) (taken : laneStep bufferSize lane motion = some lane') :
    ∃ event p' t', pumpStep idle t p event = some (p', t') ∧ PumpShows p' lane' ∧
      p'.phase.Running := by
  obtain ⟨source, sent, phase⟩ := p
  cases laneStep_eq_some.mp taken with
  | @take count empty positive small enough =>
      have room : count ≤ source.length := enough.trans_eq (congrArg List.length shows.source)
      cases running with
      | reading deadline fireAt =>
          refine ⟨.read count, _, _, if_pos ⟨positive, small, room⟩, ⟨?_, shows.sent, ?_⟩,
            .writing ?_⟩
          · rw [shows.source]
          · rw [shows.source]
            exact rfl
          · rw [← List.length_pos_iff, List.length_take, Nat.min_eq_left room]
            exact positive
      | writing more => exact absurd (shows.held.symm.trans empty) more
  | @give count positive enough =>
      cases running with
      | reading deadline fireAt =>
          have held : lane.held = [] := shows.held
          rw [held] at enough
          exact absurd positive (Nat.not_lt.mpr enough)
      | @writing pending _ =>
          obtain rfl : lane.held = pending := shows.held
          refine ⟨.write count, _, _, if_pos ⟨positive, enough⟩, ⟨shows.source, ?_, ?_⟩, ?_⟩
          · rw [shows.sent]
          · dsimp only
            split
            · exact ‹_›
            · exact rfl
          · dsimp only
            split
            · exact .reading _ _
            · exact .writing ‹_›

end Pumps

/-! ## Both pumps -/

variable {idle now wall : Nat} {fromUpstream fromClient : Bytes} {labels : List Label}
  {s next : Relay} {label : Label} {pipe : Side → Lane UInt8} {side : Side}

theorem Shows.update {p : Pump} {lane : Lane UInt8} {clocks : Clocks} {stage : Stage}
    (shows : Shows s pipe) (moved : PumpShows p lane) :
    Shows ⟨clocks, Function.update s.pumps side p, stage⟩ (Function.update pipe side lane) := by
  intro other
  change PumpShows (Function.update s.pumps side p other) (Function.update pipe side lane other)
  by_cases here : other = side
  · subst here
    rw [Function.update_self, Function.update_self]
    exact moved
  · rw [Function.update_of_ne here, Function.update_of_ne here]
    exact shows other

theorem Relayed.shows (relayed : Relayed idle s label next) (shows : Shows s pipe) :
    ∃ motions pipe', run (pipeStep false bufferSize) pipe motions = some pipe' ∧
      Shows next pipe' := by
  cases relayed with
  | tick | adjust _ | shutdownClient _ | shutdownUpstream _ => exact ⟨[], pipe, rfl, shows⟩
  | @pump side event p clocks _ pumped =>
      obtain ⟨motions, lane, runs, moved⟩ := pumped.shows (shows side)
      exact ⟨_, _, run_own_lane runs, shows.update moved⟩

/-- Both pumps run. -/
structure Running (s : Relay) : Prop where
  selecting : s.stage = .selecting
  pumps : ∀ side, (s.pumps side).phase.Running

theorem exists_relayStep_of_motion (idle : Nat) {motion : Motion} {lane lane' : Lane UInt8}
    (shows : PumpShows (s.pumps side) lane) (selecting : s.stage = .selecting)
    (running : (s.pumps side).phase.Running)
    (taken : laneStep bufferSize lane motion = some lane') :
    ∃ event p clocks, PumpShows p lane' ∧ p.phase.Running ∧
      relayStep idle s (.pump side event) =
        some ⟨clocks, Function.update s.pumps side p, .selecting⟩ := by
  obtain ⟨event, p, clocks, steps, moved, running'⟩ :=
    exists_step_of_motion idle s.clocks shows running taken
  refine ⟨event, p, clocks, moved, running', ?_⟩
  simp only [relayStep, selecting, steps, stageAfter_of_running running']

/-- Every motion of the pipe is a step of a relay both of whose pumps run. -/
theorem exists_step_of_pipe {motion : Side × Motion} {pipe' : Side → Lane UInt8}
    (idle : Nat) (shows : Shows s pipe) (running : Running s)
    (taken : pipeStep false bufferSize pipe motion = some pipe') :
    ∃ label next, relayStep idle s label = some next ∧ Shows next pipe' ∧ Running next := by
  obtain ⟨side, motion⟩ := motion
  rw [pipeStep_own, Option.map_eq_some_iff] at taken
  obtain ⟨lane, taken, rfl⟩ := taken
  obtain ⟨event, p, clocks, moved, running', steps⟩ :=
    exists_relayStep_of_motion idle (shows side) running.selecting (running.pumps side) taken
  refine ⟨_, _, steps, shows.update moved, rfl, ?_⟩
  exact (Function.forall_update_iff s.pumps fun _ p => p.phase.Running).mpr
    ⟨running', fun other _ => running.pumps other⟩

theorem start_shows (now wall : Nat) (fromUpstream fromClient : Bytes) :
    Shows (.start now wall fromUpstream fromClient) (freshPipe fromUpstream fromClient) := by
  intro side
  cases side with
  | down => exact ⟨rfl, rfl, rfl⟩
  | up => exact ⟨rfl, rfl, rfl⟩

/-- Both pumps are polled for the first time. -/
theorem exists_running (idle now wall : Nat) (fromUpstream fromClient : Bytes) :
    ∃ s, run (relayStep idle) (.start now wall fromUpstream fromClient)
        [.pump .down .start, .pump .up .start] = some s ∧
      Shows s (freshPipe fromUpstream fromClient) ∧ Running s := by
  refine ⟨_, rfl, fun side => ?_, rfl, fun side => ?_⟩
  · cases side <;> exact ⟨rfl, rfl, rfl⟩
  · cases side <;> exact .reading _ _

theorem pipe_of_relay
    (runs : run (relayStep idle) (.start now wall fromUpstream fromClient) labels = some s) :
    ∃ motions pipe,
      run (pipeStep false bufferSize) (freshPipe fromUpstream fromClient) motions = some pipe ∧
      Shows s pipe :=
  run_simulates Shows (fun _ _ _ _ shows taken => (relayed_of_relayStep taken).shows shows)
    (start_shows now wall fromUpstream fromClient) runs

theorem relay_of_lanes (idle now wall : Nat) {motions : List (Side × Motion)}
    (lanes : ∀ side, run (laneStep bufferSize) (freshPipe fromUpstream fromClient side)
      (onLane side motions) = some (pipe side)) :
    ∃ labels s, run (relayStep idle) (.start now wall fromUpstream fromClient) labels = some s ∧
      Shows s pipe ∧ Running s := by
  obtain ⟨first, polled, shows, running⟩ :=
    exists_running idle now wall fromUpstream fromClient
  obtain ⟨labels, s, goes, related⟩ : ∃ labels s, run (relayStep idle) first labels = some s ∧
      Shows s pipe ∧ Running s := by
    refine run_simulates (fun pipe s => Shows s pipe ∧ Running s) ?_ ⟨shows, running⟩
      (run_own_iff.mpr lanes)
    intro pipe s motion pipe' related taken
    obtain ⟨label, next, steps, related'⟩ :=
      exists_step_of_pipe idle related.1 related.2 taken
    exact ⟨[label], next, run_cons_of_step [] steps, related'⟩
  exact ⟨_, s, by rw [run_append polled, goes], related⟩

/-- The relay does with the bytes what a pipe with a buffer for each direction
does: what it has read and written at any time of any run is reached by the
pipe; and for whatever each direction can do by itself, in every interleaving
of the two, there is a run of the relay that does it and goes on. -/
theorem rust_relay_implements_pipe (idle now wall : Nat) (fromUpstream fromClient : Bytes) :
    (∀ labels s, run (relayStep idle) (.start now wall fromUpstream fromClient) labels = some s →
      ∃ motions pipe,
        run (pipeStep false bufferSize) (freshPipe fromUpstream fromClient) motions = some pipe ∧
        Shows s pipe) ∧
    (∀ motions pipe,
      (∀ side, run (laneStep bufferSize) (freshPipe fromUpstream fromClient side)
        (onLane side motions) = some (pipe side)) →
      ∃ labels s, run (relayStep idle) (.start now wall fromUpstream fromClient) labels = some s ∧
        Shows s pipe ∧ Running s) :=
  ⟨fun _ _ => pipe_of_relay, fun _ _ => relay_of_lanes idle now wall⟩

/-- A run of one lane is made by its pump alone. -/
theorem exists_run_of_lane (idle : Nat) {motions : List Motion} {lane lane' : Lane UInt8}
    (shows : PumpShows (s.pumps side) lane) (selecting : s.stage = .selecting)
    (running : (s.pumps side).phase.Running)
    (runs : run (laneStep bufferSize) lane motions = some lane') :
    ∃ labels next, (∀ label ∈ labels, ∃ event, label = .pump side event) ∧
      run (relayStep idle) s labels = some next ∧ PumpShows (next.pumps side) lane' ∧
      next.stage = .selecting ∧ next.pumps side.other = s.pumps side.other := by
  induction motions generalizing s lane with
  | nil =>
      rw [run_nil, Option.some.injEq] at runs
      exact ⟨[], s, List.forall_mem_nil _, rfl, runs ▸ shows, selecting, rfl⟩
  | cons motion motions ih =>
      obtain ⟨middle, taken, rest⟩ := run_cons_eq_some runs
      obtain ⟨event, p, clocks, moved, running', steps⟩ :=
        exists_relayStep_of_motion idle shows selecting running taken
      generalize pumps_eq : Function.update s.pumps side p = pumps at steps
      have self : pumps side = p := by rw [← pumps_eq, Function.update_self]
      have away : side.other ≠ side := by cases side <;> exact Side.noConfusion
      have others : pumps side.other = s.pumps side.other := by
        rw [← pumps_eq, Function.update_of_ne away]
      subst self
      obtain ⟨labels, next, only, goes, shows', selecting', others'⟩ :=
        ih (s := ⟨clocks, pumps, .selecting⟩) moved rfl running' rest
      exact ⟨_ :: labels, next, List.forall_mem_cons.mpr ⟨⟨event, rfl⟩, only⟩,
        (run_cons_of_step _ steps).trans goes, shows', selecting', others'.trans others⟩

/-- Whatever the other direction does: as long as both go on, a pump that has
been polled can write all that its peer sends, without a step of the other. -/
theorem direction_goes_on
    (runs : run (relayStep idle) (.start now wall fromUpstream fromClient) labels = some s)
    (selecting : s.stage = .selecting) (running : (s.pumps side).phase.Running) :
    ∃ more later, (∀ label ∈ more, ∃ event, label = .pump side event) ∧
      run (relayStep idle) s more = some later ∧
      (later.pumps side).sent = streamOf fromUpstream fromClient side ∧
      later.pumps side.other = s.pumps side.other ∧ later.stage = .selecting := by
  obtain ⟨held, holds, whole⟩ := (run_conserves runs side).kept
  have shows : PumpShows (s.pumps side) ⟨(s.pumps side).source, held, (s.pumps side).sent⟩ :=
    ⟨rfl, rfl, holds⟩
  obtain ⟨motions, drains⟩ := exists_drain (show 0 < bufferSize by decide)
    ⟨(s.pumps side).source, held, (s.pumps side).sent⟩
  obtain ⟨more, later, only, goes, shows', selecting', others⟩ :=
    exists_run_of_lane idle shows selecting running drains
  exact ⟨more, later, only, goes, shows'.sent.symm.trans whole.symm, others, selecting'⟩

/-- A byte of the upstream is in hand and is not written; the client's is still to be read. -/
theorem direction_goes_on_up :
    ∃ s, run (relayStep 300000) (.start 0 0 [79] [71])
        [.pump .down .start, .pump .up .start, .pump .down (.read 1)] = some s ∧
      ∃ more later, (∀ label ∈ more, ∃ event, label = .pump .up event) ∧
        run (relayStep 300000) s more = some later ∧ (later.pumps .up).sent = [71] ∧
        later.pumps .down = s.pumps .down ∧ later.stage = .selecting := by
  have runs : run (relayStep 300000) (.start 0 0 [79] [71])
      [.pump .down .start, .pump .up .start, .pump .down (.read 1)] = some _ := rfl
  have running : Phase.Running (.reading 300000 300000) := .reading _ _
  exact ⟨_, runs, direction_goes_on runs rfl running⟩

end TailcatSocks.Rust
