import TailcatSocks.Rust.Relay

/-!
# The task of the Rust relay

Both pumps live in one task.  When the runtime polls it, `select!` polls one
pump and then the other, each until the await at which it stands returns
`Poll::Pending`; then the task yields.  While one pump is polled the other does
not move, though time passes.  Which one comes first is a random choice of
`select!`, and an await may be pending whatever its socket has.
-/

namespace TailcatSocks.Rust

open Library

/-- Where the task stands. -/
inductive Turn where
  /-- It has yielded, or begins. -/
  | yielded
  /-- One pump is polled, and the other comes next. -/
  | first (side : Side)
  /-- One pump is polled, and the other has been. -/
  | last (side : Side)
  deriving DecidableEq, Repr

def Turn.polled : Turn → Option Side
  | .yielded => none
  | .first side | .last side => some side

structure RelayTask where
  relay : Relay
  turn : Turn

inductive TaskLabel where
  /-- The runtime polls the task, and `select!` begins with this pump. -/
  | poll (side : Side)
  /-- The await of the polled pump is pending. -/
  | pending
  | relay (label : Label)
  deriving DecidableEq, Repr

/-- The pump stands at an await. -/
def Phase.awaits : Phase → Bool
  | .reading _ _ | .writing _ => true
  | .start | .done _ => false

def taskStep (idle : Nat) (s : RelayTask) : TaskLabel → Option RelayTask
  | .poll side =>
      if s.turn = .yielded ∧ s.relay.stage = .selecting then some { s with turn := .first side }
      else none
  | .pending =>
      match s.turn with
      | .yielded => none
      | .first side =>
          if (s.relay.pumps side).phase.awaits then some { s with turn := .last side.other }
          else none
      | .last side =>
          if (s.relay.pumps side).phase.awaits then some { s with turn := .yielded } else none
  | .relay (.pump side event) =>
      if s.turn.polled = some side then
        (relayStep idle s.relay (.pump side event)).map fun relay => { s with relay }
      else none
  | .relay label => (relayStep idle s.relay label).map fun relay => { s with relay }

def RelayTask.start (now wall : Nat) (fromUpstream fromClient : Bytes) : RelayTask :=
  ⟨.start now wall fromUpstream fromClient, .yielded⟩

/-- The transitions of the task. -/
inductive Scheduled (idle : Nat) (s : RelayTask) : TaskLabel → RelayTask → Prop where
  | poll (side : Side) : s.turn = .yielded → s.relay.stage = .selecting →
      Scheduled idle s (.poll side) { s with turn := .first side }
  | handsOver {side : Side} : s.turn = .first side → (s.relay.pumps side).phase.awaits = true →
      Scheduled idle s .pending { s with turn := .last side.other }
  | yields {side : Side} : s.turn = .last side → (s.relay.pumps side).phase.awaits = true →
      Scheduled idle s .pending { s with turn := .yielded }
  | relay {label : Label} {relay : Relay} :
      (∀ side event, label = .pump side event → s.turn.polled = some side) →
      relayStep idle s.relay label = some relay →
      Scheduled idle s (.relay label) { s with relay }

variable {idle : Nat} {s next : RelayTask} {motions : List TaskLabel}

theorem taskStep_relay {label : Label}
    (polled : ∀ side event, label = .pump side event → s.turn.polled = some side) :
    taskStep idle s (.relay label) =
      (relayStep idle s.relay label).map fun relay => { s with relay } := by
  cases label with
  | pump side event => exact if_pos (polled side event rfl)
  | tick | adjust _ | shutdownClient | shutdownUpstream => rfl

theorem scheduled_of_taskStep {motion : TaskLabel} (taken : taskStep idle s motion = some next) :
    Scheduled idle s motion next := by
  cases motion with
  | poll side =>
      simp only [taskStep] at taken
      split at taken <;> cases taken
      next enabled => exact .poll side enabled.1 enabled.2
  | pending =>
      simp only [taskStep] at taken
      split at taken
      · cases taken
      · split at taken <;> cases taken
        exact .handsOver ‹_› ‹_›
      · split at taken <;> cases taken
        exact .yields ‹_› ‹_›
  | relay label =>
      have polled : ∀ side event, label = .pump side event → s.turn.polled = some side := by
        rintro side event rfl
        by_contra other
        cases (if_neg other).symm.trans taken
      rw [taskStep_relay polled] at taken
      obtain ⟨relay, moved, rfl⟩ := Option.map_eq_some_iff.mp taken
      exact .relay polled moved

/-! ## The relay in its task -/

def TaskLabel.own : TaskLabel → Option Label
  | .relay label => some label
  | .poll _ | .pending => none

/-- The steps of the relay itself. -/
def relayLabels (motions : List TaskLabel) : List Label := motions.filterMap TaskLabel.own

def relayHistory (past : List (RelayTask × TaskLabel)) : List (Relay × Label) :=
  past.filterMap fun entry => entry.2.own.map fun label => (entry.1.relay, label)

theorem relayLabels_append (first second : List TaskLabel) :
    relayLabels (first ++ second) = relayLabels first ++ relayLabels second :=
  List.filterMap_append

/-- In its task the relay takes steps of its own. -/
theorem run_relay (runs : run (taskStep idle) s motions = some next) :
    run (relayStep idle) s.relay (relayLabels motions) = some next.relay ∧
      history (relayStep idle) s.relay (relayLabels motions) =
        relayHistory (history (taskStep idle) s motions) := by
  refine run_filterMap RelayTask.relay TaskLabel.own ?_ ?_ runs
  · intro state motion after label own taken
    cases scheduled_of_taskStep taken with
    | poll _ _ _ | handsOver _ _ | yields _ _ => cases own
    | relay _ moved =>
        cases own
        exact moved
  · intro state motion after own taken
    cases scheduled_of_taskStep taken with
    | poll _ _ _ | handsOver _ _ | yields _ _ => rfl
    | relay _ _ => cases own

/-- Steps of neither pump need no poll. -/
theorem run_of_relay {labels : List Label} {relay : Relay}
    (runs : run (relayStep idle) s.relay labels = some relay)
    (quiet : ∀ label ∈ labels, ∀ side event, label ≠ .pump side event) :
    run (taskStep idle) s (labels.map .relay) = some { s with relay } := by
  induction labels generalizing s with
  | nil =>
      cases runs
      rfl
  | cons label labels ih =>
      obtain ⟨middle, taken, rest⟩ := run_cons_eq_some runs
      have passes : taskStep idle s (.relay label) = some { s with relay := middle } := by
        rw [taskStep_relay fun side event same =>
          absurd same (quiet label List.mem_cons_self side event), taken, Option.map_some]
      rw [List.map_cons, run_cons_of_step _ passes]
      exact ih rest fun label member => quiet label (.tail _ member)

/-! ## Every interleaving -/

/-- The polled pump can be left where it stands. -/
def Ready (s : RelayTask) : Prop :=
  s.relay.stage = .selecting → ∀ side, s.turn.polled = some side →
    (s.relay.pumps side).phase.awaits = true

theorem Pumped.awaits {t t' : Clocks} {p p' : Pump} {event : Event} {side : Side}
    (pumped : Pumped idle t p event p' t') (goesOn : stageAfter side p'.phase = .selecting) :
    p'.phase.awaits = true := by
  cases pumped with
  | start _ | read _ _ _ _ | rearm _ _ _ | writePart _ _ _ | writeAll _ _ _ => rfl
  | eof _ _ | readFail _ | timeOut _ _ _ | writeFail _ => cases goesOn

/-- The next pump to be polled is free. -/
theorem Ready.exists_turn (ready : Ready s) (selecting : s.relay.stage = .selecting)
    (side : Side) :
    ∃ motions turn, run (taskStep idle) s motions = some { s with turn } ∧
      relayLabels motions = [] ∧ turn.polled = some side := by
  obtain ⟨relay, turn⟩ := s
  cases turn with
  | yielded =>
      have polls : taskStep idle ⟨relay, .yielded⟩ (.poll side) = some ⟨relay, .first side⟩ :=
        if_pos ⟨rfl, selecting⟩
      exact ⟨[.poll side], .first side, run_cons_of_step [] polls, rfl, rfl⟩
  | first polled =>
      by_cases here : polled = side
      · exact ⟨[], .first polled, rfl, rfl, congrArg some here⟩
      · have handsOver : taskStep idle ⟨relay, .first polled⟩ .pending =
            some ⟨relay, .last polled.other⟩ := if_pos (ready selecting polled rfl)
        exact ⟨[.pending], .last polled.other, run_cons_of_step [] handsOver, rfl,
          congrArg some (Side.eq_other here).symm⟩
  | last polled =>
      by_cases here : polled = side
      · exact ⟨[], .last polled, rfl, rfl, congrArg some here⟩
      · have yields : taskStep idle ⟨relay, .last polled⟩ .pending = some ⟨relay, .yielded⟩ :=
          if_pos (ready selecting polled rfl)
        have polls : taskStep idle ⟨relay, .yielded⟩ (.poll side) = some ⟨relay, .first side⟩ :=
          if_pos ⟨rfl, selecting⟩
        refine ⟨[.pending, .poll side], .first side, ?_, rfl, rfl⟩
        rw [run_cons_of_step _ yields, run_cons_of_step _ polls, run_nil]

/-- A step of the relay, after the polls that it needs. -/
theorem Ready.exists_step {label : Label} {relay : Relay} (ready : Ready s)
    (taken : relayStep idle s.relay label = some relay) :
    ∃ motions turn, run (taskStep idle) s motions = some ⟨relay, turn⟩ ∧
      relayLabels motions = [label] ∧ Ready ⟨relay, turn⟩ := by
  have passes {turn : Turn} (polled : ∀ side event, label = .pump side event →
      turn.polled = some side) : taskStep idle { s with turn } (.relay label) =
        some ⟨relay, turn⟩ := by
    rw [taskStep_relay polled, taken, Option.map_some]
  cases relayed_of_relayStep taken with
  | tick | adjust _ =>
      exact ⟨[.relay _], s.turn, run_cons_of_step [] (passes fun _ _ same => by cases same), rfl,
        ready⟩
  | shutdownClient _ | shutdownUpstream _ =>
      exact ⟨[.relay _], s.turn, run_cons_of_step [] (passes fun _ _ same => by cases same), rfl,
        fun selecting => by cases selecting⟩
  | @pump side event p clocks selecting pumped =>
      obtain ⟨motions, turn, polls, silent, polled⟩ := ready.exists_turn selecting side
      refine ⟨motions ++ [.relay (.pump side event)], turn, ?_, ?_, ?_⟩
      · have moved := @passes turn fun other event' same => by
          cases same
          exact polled
        rw [run_append polls, run_cons_of_step _ moved, run_nil]
      · rw [relayLabels_append, silent]
        rfl
      · intro goesOn other here
        obtain rfl : side = other := Option.some.inj (polled.symm.trans here)
        dsimp only
        rw [Function.update_self]
        exact pumped.awaits goesOn

/-- The task neither adds an interleaving of the pumps nor loses one. -/
theorem run_relay_iff {now wall : Nat} {fromUpstream fromClient : Bytes} {labels : List Label}
    {relay : Relay} :
    run (relayStep idle) (.start now wall fromUpstream fromClient) labels = some relay ↔
      ∃ motions turn, run (taskStep idle) (.start now wall fromUpstream fromClient) motions =
        some ⟨relay, turn⟩ ∧ relayLabels motions = labels := by
  constructor
  · intro runs
    suffices ∃ motions turn, run (taskStep idle) (.start now wall fromUpstream fromClient)
        motions = some ⟨relay, turn⟩ ∧ relayLabels motions = labels ∧ Ready ⟨relay, turn⟩ by
      obtain ⟨motions, turn, reaches, passed, -⟩ := this
      exact ⟨motions, turn, reaches, passed⟩
    induction labels using List.reverseRecOn generalizing relay with
    | nil =>
        cases runs
        exact ⟨[], .yielded, rfl, rfl, fun _ _ polled => by cases polled⟩
    | append_singleton labels label ih =>
        obtain ⟨middle, before, taken⟩ := run_concat_eq_some runs
        obtain ⟨motions, turn, reaches, passed, ready⟩ := ih before
        obtain ⟨more, turn', goes, last, ready'⟩ := ready.exists_step taken
        refine ⟨motions ++ more, turn', by rw [run_append reaches, goes], ?_, ready'⟩
        rw [relayLabels_append, passed, last]
  · rintro ⟨motions, turn, runs, rfl⟩
    exact (run_relay runs).1

end TailcatSocks.Rust
