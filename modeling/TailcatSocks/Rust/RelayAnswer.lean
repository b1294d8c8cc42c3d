import TailcatSocks.Rust.Relay

/-!
# What becomes of the upstream's answer

`select!` drops the pump that has not returned.  When that is the pump which
carries the upstream's bytes to the client, whatever it has not written by then
is lost.  One step of a run decides: the last one of a pump.
-/

namespace TailcatSocks.Rust

open Library

variable {idle now wall : Nat} {fromUpstream fromClient : Bytes} {labels : List Label} {s : Relay}

/-- `select!` stops only for a pump that has returned. -/
theorem done_of_stageAfter {side : Side} {phase : Phase}
    (stopped : stageAfter side phase ≠ .selecting) : ∃ how, phase = .done how := by
  cases phase with
  | done how => exact ⟨how, rfl⟩
  | start | reading _ _ | writing _ => exact absurd rfl stopped

/-- How a pump returns is how its last step went. -/
theorem Pumped.returned_cases {t t' : Clocks} {p p' : Pump} {event : Event} {how : End}
    (pumped : Pumped idle t p event p' t') (returned : p'.phase = .done how) :
    event = .eof ∧ how = .eof ∨ event = .readFail ∧ how = .readFailed ∨
      event = .fire ∧ how = .timedOut ∨ event = .writeFail ∧ how = .writeFailed := by
  cases pumped with
  | eof _ _ =>
      cases returned
      exact .inl ⟨rfl, rfl⟩
  | readFail _ =>
      cases returned
      exact .inr (.inl ⟨rfl, rfl⟩)
  | timeOut _ _ _ =>
      cases returned
      exact .inr (.inr (.inl ⟨rfl, rfl⟩))
  | writeFail _ =>
      cases returned
      exact .inr (.inr (.inr ⟨rfl, rfl⟩))
  | start _ | read _ _ _ _ | rearm _ _ _ | writePart _ _ _ | writeAll _ _ _ => cases returned

/-- While `select!` goes on neither pump has returned. -/
theorem run_selecting
    (runs : run (relayStep idle) (.start now wall fromUpstream fromClient) labels = some s)
    (selecting : s.stage = .selecting) (side : Side) (how : End) :
    (s.pumps side).phase ≠ .done how := by
  have invariant := run_invariant
    (fun s => s.stage = .selecting → ∀ side how, (s.pumps side).phase ≠ .done how)
    (fun _ side how => by cases side <;> exact fun h => by cases h)
    (fun state label next before taken => ?_) runs
  · exact invariant selecting side how
  · intro goesOn
    cases relayed_of_relayStep taken with
    | @pump moved event p clocks selecting _ =>
        refine (Function.forall_update_iff state.pumps
          fun _ p => ∀ how, p.phase ≠ .done how).mpr ⟨?_, fun other _ => before selecting other⟩
        intro how returned
        change stageAfter moved p.phase = .selecting at goesOn
        rw [returned] at goesOn
        cases goesOn
    | tick | adjust _ => exact before goesOn
    | shutdownClient _ | shutdownUpstream => cases goesOn

/-- Once a pump has returned, neither moves any more. -/
theorem run_of_ended {state : Relay} (ended : state.stage ≠ .selecting)
    (runs : run (relayStep idle) state labels = some s) : s.pumps = state.pumps := by
  have invariant := run_invariant
    (fun s => s.stage ≠ .selecting ∧ s.pumps = state.pumps) ⟨ended, rfl⟩
    (fun middle label next before taken => ?_) runs
  · exact invariant.2
  · obtain ⟨stopped, same⟩ := before
    cases relayed_of_relayStep taken with
    | pump selecting _ => exact absurd selecting stopped
    | tick | adjust _ => exact ⟨stopped, same⟩
    | shutdownClient _ | shutdownUpstream => exact ⟨(fun h => by cases h), same⟩

/-- A relay that has stopped selecting did so in one step, in which one pump
returned; both pumps are as that step left them. -/
theorem run_decided
    (runs : run (relayStep idle) (.start now wall fromUpstream fromClient) labels = some s)
    (ended : s.stage ≠ .selecting) :
    ∃ state side event p clocks how,
      (state, Label.pump side event) ∈
        history (relayStep idle) (.start now wall fromUpstream fromClient) labels ∧
      state.stage = .selecting ∧ Pumped idle state.clocks (state.pumps side) event p clocks ∧
      p.phase = .done how ∧ s.pumps = Function.update state.pumps side p := by
  have invariant := run_induction (fun past s => s.stage ≠ .selecting →
      ∃ state side event p clocks how, (state, Label.pump side event) ∈ past ∧
        state.stage = .selecting ∧ Pumped idle state.clocks (state.pumps side) event p clocks ∧
        p.phase = .done how ∧ s.pumps = Function.update state.pumps side p)
    (fun stopped => absurd rfl stopped) (fun past state label next before taken => ?_) runs
  · exact invariant ended
  · intro stopped
    have older : state.stage ≠ .selecting → next.pumps = state.pumps →
        ∃ earlier side event p clocks how,
          (earlier, Label.pump side event) ∈ past ++ [(state, label)] ∧
          earlier.stage = .selecting ∧
          Pumped idle earlier.clocks (earlier.pumps side) event p clocks ∧
          p.phase = .done how ∧ next.pumps = Function.update earlier.pumps side p := by
      intro stopped' same
      obtain ⟨earlier, side, event, p, clocks, how, member, rest⟩ := before stopped'
      exact ⟨earlier, side, event, p, clocks, how, List.mem_append_left _ member, same ▸ rest⟩
    cases relayed_of_relayStep taken with
    | @pump side event p clocks selecting pumped =>
        obtain ⟨how, returned⟩ := done_of_stageAfter stopped
        exact ⟨state, side, event, p, clocks, how,
          List.mem_append_right _ (List.mem_singleton_self _), selecting, pumped, returned, rfl⟩
    | tick | adjust _ => exact older stopped rfl
    | shutdownClient ended => exact older (fun h => by rw [h] at ended; cases ended) rfl
    | shutdownUpstream shut => exact older (fun h => by rw [h] at shut; cases shut) rfl

/-! ## The answer -/

/-- The pump from the client returns, at the client's end of stream or because
its read or its write failed. -/
def UpEnds (label : Label) : Prop :=
  label = .pump .up .eof ∨ label = .pump .up .readFail ∨ label = .pump .up .writeFail

instance (label : Label) : Decidable (UpEnds label) :=
  inferInstanceAs (Decidable (label = .pump .up .eof ∨ label = .pump .up .readFail ∨
    label = .pump .up .writeFail))

/-- The pump from the upstream has nothing left to read and is not writing. -/
def NothingLeft (s : Relay) : Prop :=
  (s.pumps .down).source = [] ∧ ∀ pending, (s.pumps .down).phase ≠ .writing pending

theorem sent_eq_of_nothingLeft {stream : Bytes} {p : Pump} (conserved : Conserves stream p)
    (nothing : p.source = []) (idle : ∀ pending, p.phase ≠ .writing pending)
    (unfailed : p.phase ≠ .done .writeFailed) : p.sent = stream := by
  obtain ⟨held, holds, whole⟩ := conserved.kept
  have empty : held = [] := by
    cases phase : p.phase with
    | start | reading _ _ =>
        rw [phase] at holds
        exact holds
    | writing pending => exact absurd phase (idle pending)
    | done how =>
        rw [phase] at holds unfailed
        cases how with
        | eof | readFailed | timedOut => exact holds
        | writeFailed => exact absurd rfl unfailed
  rw [whole, empty, nothing, List.append_nil, List.append_nil]

theorem nothingLeft_of_sent_eq {stream : Bytes} {p : Pump} (conserved : Conserves stream p)
    (all : p.sent = stream) : p.source = [] ∧ ∀ pending, p.phase ≠ .writing pending := by
  obtain ⟨held, holds, whole⟩ := conserved.kept
  rw [← all, List.append_assoc, List.self_eq_append_right, List.append_eq_nil_iff] at whole
  refine ⟨whole.2, fun pending writing => ?_⟩
  rw [writing] at holds
  exact conserved.pending (by rw [writing, ← holds, whole.1])

/-- A step in which the pump from the client returns leaves the other pump as it is. -/
theorem upEnds_fixes {state next : Relay} {label : Label} (ends : UpEnds label)
    (taken : relayStep idle state label = some next) :
    next.stage ≠ .selecting ∧ next.pumps .down = state.pumps .down := by
  cases relayed_of_relayStep taken with
  | @pump side event p clocks _ pumped =>
      have onUp : side = .up := by
        rcases ends with ends | ends | ends <;> cases ends <;> rfl
      subst onUp
      refine ⟨?_, Function.update_of_ne (by decide : Side.down ≠ Side.up) p state.pumps⟩
      change stageAfter .up p.phase ≠ .selecting
      rcases ends with ends | ends | ends <;> cases ends <;> cases pumped <;>
        exact fun h => by cases h
  | tick | adjust _ | shutdownClient _ | shutdownUpstream =>
      rcases ends with ends | ends | ends <;> cases ends

/-- When no read from the upstream, no write to the client and no idle window
fails, the client has the whole answer at its shutdown exactly when the pump
from the client returned, if it did, with nothing left for the other to do. -/
theorem answer_delivered_iff
    (runs : run (relayStep idle) (.start now wall fromUpstream fromClient) labels = some s)
    (shut : s.stage = .clientShut ∨ s.stage = .closed)
    (clean : ∀ entry ∈ history (relayStep idle) (.start now wall fromUpstream fromClient) labels,
      entry.2 ≠ .pump .down .readFail ∧ entry.2 ≠ .pump .down .writeFail)
    (inTime : ∀ side, (s.pumps side).phase ≠ .done .timedOut) :
    (s.pumps .down).sent = fromUpstream ↔
      ∀ entry ∈ history (relayStep idle) (.start now wall fromUpstream fromClient) labels,
        UpEnds entry.2 → NothingLeft entry.1 := by
  have ended : s.stage ≠ .selecting := by
    rcases shut with shut | shut <;> rw [shut] <;> exact fun h => by cases h
  constructor
  · intro all entry member ends
    obtain ⟨first, second, next, -, before, taken, rest⟩ := mem_history runs member
    obtain ⟨stopped, same⟩ := upEnds_fixes ends taken
    have final : s.pumps .down = entry.1.pumps .down := by
      rw [run_of_ended stopped rest, same]
    rw [final] at all
    exact nothingLeft_of_sent_eq (run_conserves before .down) all
  · intro waits
    obtain ⟨state, side, event, p, clocks, how, member, selecting, pumped, returned, final⟩ :=
      run_decided runs ended
    obtain ⟨first, second, next, -, before, -, -⟩ := mem_history runs member
    cases side with
    | down =>
        have last : s.pumps .down = p := by rw [final, Function.update_self]
        have conserved := run_conserves runs .down
        rw [last] at conserved ⊢
        rcases pumped.returned_cases returned with
          ⟨-, rfl⟩ | ⟨rfl, -⟩ | ⟨-, rfl⟩ | ⟨rfl, -⟩
        · exact sent_eq_of_eof conserved returned
        · exact absurd rfl (clean _ member).1
        · exact absurd (by rw [last, returned]) (inTime .down)
        · exact absurd rfl (clean _ member).2
    | up =>
        have last : s.pumps .down = state.pumps .down := by
          rw [final, Function.update_of_ne (by decide : Side.down ≠ Side.up)]
        have ends : UpEnds (.pump .up event) := by
          rcases pumped.returned_cases returned with
            ⟨rfl, -⟩ | ⟨rfl, -⟩ | ⟨-, rfl⟩ | ⟨rfl, -⟩
          · exact .inl rfl
          · exact .inr (.inl rfl)
          · exact absurd (by rw [final, Function.update_self, returned]) (inTime .up)
          · exact .inr (.inr rfl)
        obtain ⟨nothing, idle⟩ := waits _ member ends
        rw [last]
        exact sent_eq_of_nothingLeft (run_conserves before .down) nothing idle
          (run_selecting before selecting .down _)

/-- An upstream that answers and closes before the client does. -/
def answeredFirst : List Label :=
  [.pump .down .start, .pump .up .start, .pump .down (.read 2), .pump .down (.write 2),
    .pump .down .eof, .shutdownClient]

/-- It is heard out. -/
theorem answer_delivered_when_answeredFirst :
    (run (relayStep 300000) (.start 0 0 [79, 75] [71]) answeredFirst).map
      (fun s => (s.pumps .down).sent) = some [79, 75] := by
  obtain ⟨s, runs⟩ := Option.isSome_iff_exists.mp
    (by decide : (run (relayStep 300000) (.start 0 0 [79, 75] [71]) answeredFirst).isSome = true)
  have stage := congrArg (Option.map Relay.stage) runs
  have phase (side : Side) := congrArg (Option.map fun s => (s.pumps side).phase) runs
  have noneEnds : ∀ entry ∈ history (relayStep 300000) (.start 0 0 [79, 75] [71]) answeredFirst,
      ¬ UpEnds entry.2 := by decide
  rw [runs, Option.map_some, (answer_delivered_iff runs (.inl (Option.some.inj stage.symm))
    (by decide) ?_).mpr fun entry member ends => absurd ends (noneEnds entry member)]
  intro side returned
  have last := phase side
  rw [Option.map_some, returned] at last
  revert last
  cases side <;> decide

/-- A client sends one byte and half-closes before the answer arrives: the
relay shuts the client down with nothing of the answer written. -/
theorem answer_lost_on_half_close :
    ¬ ∀ labels s,
      run (relayStep 300000) (.start 0 0 [79, 75] [71]) labels = some s →
      (s.stage = .clientShut ∨ s.stage = .closed) →
      (∀ entry ∈ history (relayStep 300000) (.start 0 0 [79, 75] [71]) labels,
        entry.2 ≠ .pump .down .readFail ∧ entry.2 ≠ .pump .down .writeFail) →
      (∀ side, (s.pumps side).phase ≠ .done .timedOut) →
      (s.pumps .down).sent = [79, 75] := by
  intro delivered
  have lost := delivered
    [.pump .down .start, .pump .up .start, .pump .up (.read 1), .pump .up (.write 1),
      .pump .up .eof, .shutdownClient] _ rfl (.inl rfl) (by decide)
    (fun side => by cases side <;> decide)
  exact absurd lost (by decide)

end TailcatSocks.Rust
