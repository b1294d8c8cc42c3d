import TailcatSocks.Rust.RelayClock
import TailcatSocks.Rust.RelayTask

/-!
# Tearing an idle session down

A pump waits under a timer only while it reads.  A task that yields with both
pumps in `write_all`, at peers that have stopped reading, therefore has no timer
at all.  It is not enough for this that one pump reads while the other is in
`write_all`: what it has read must not fit into its own sink either.
-/

namespace TailcatSocks.Rust

open Library

def Phase.IsReading (phase : Phase) : Prop := ∃ deadline fireAt, phase = .reading deadline fireAt

def Phase.IsWriting (phase : Phase) : Prop := ∃ pending, phase = .writing pending

instance (phase : Phase) : Decidable phase.IsWriting :=
  match phase with
  | .writing pending => .isTrue ⟨pending, rfl⟩
  | .start | .reading _ _ | .done _ => .isFalse (by rintro ⟨_, writes⟩; cases writes)

def BothWriting (s : Relay) : Prop := ∀ side, (s.pumps side).phase.IsWriting

/-- Neither pump has returned, and both are suspended. -/
def Suspended (s : RelayTask) : Prop :=
  s.turn = .yielded ∧
    ∀ side, (s.relay.pumps side).phase.IsReading ∨ (s.relay.pumps side).phase.IsWriting

/-- Some pump waits under a timer for a deadline within the window. -/
def TimerArmed (idle activity : Nat) (s : Relay) : Prop :=
  ∃ side deadline fireAt, (s.pumps side).phase = .reading deadline fireAt ∧
    deadline ≤ activity + idle

/-- The clock that `now_ms` reads does not run backwards in this step. -/
def Forward (idle : Nat) (entry : Relay × Label) : Prop :=
  ∀ next, relayStep idle entry.1 entry.2 = some next → entry.1.clocks.nowMs ≤ next.clocks.nowMs

/-- The pump that is polled last has to wait for its sink, as the other pump has. -/
def Stalls (entry : RelayTask × TaskLabel) : Prop :=
  entry.2 = .pending ∧ ∃ side, entry.1.turn = .last side ∧
    (entry.1.relay.pumps side).phase.IsWriting ∧
    (entry.1.relay.pumps side.other).phase.IsWriting

def Side.both : List Side := [.down, .up]

theorem Side.mem_both (side : Side) : side ∈ Side.both := by
  cases side <;> simp [Side.both]

instance (entry : RelayTask × TaskLabel) : Decidable (Stalls entry) :=
  decidable_of_iff
    (entry.2 = .pending ∧ ∃ side ∈ Side.both, entry.1.turn = .last side ∧
      (entry.1.relay.pumps side).phase.IsWriting ∧
      (entry.1.relay.pumps side.other).phase.IsWriting)
    (and_congr_right fun _ => exists_congr fun side => and_iff_right side.mem_both)

/-! ## Deadlines -/

/-- What holds of a history and the state it leads to, under a clock that does
not run backwards but may jump ahead. -/
structure Backed (idle wall : Nat) (past : List (Relay × Label)) (s : Relay) : Prop where
  shared : s.clocks.shared = lastActivity wall past % u64Size
  inPast : s.clocks.shared ≤ s.clocks.nowMs
  armed : ∀ side deadline fireAt, (s.pumps side).phase = .reading deadline fireAt →
    deadline ≤ s.clocks.shared + idle ∧ fireAt ≤ s.clocks.now + idle
  running : s.stage = .selecting ∨ ∃ side how, (s.pumps side).phase = .done how

/-- The sum may wrap, which only brings the deadline forward. -/
theorem bounds_of_arm {idle deadline fireAt : Nat} {t : Clocks} (inPast : t.shared ≤ t.nowMs)
    (arms : arm idle t = .reading deadline fireAt) :
    deadline ≤ t.shared + idle ∧ fireAt ≤ t.now + idle := by
  rw [arm, Phase.reading.injEq] at arms
  obtain ⟨rfl, rfl⟩ := arms
  have window : t.deadline idle ≤ t.shared + idle :=
    Nat.le_trans (Nat.mod_le _ _) (Nat.add_le_add_left (Nat.mod_le _ _) _)
  exact ⟨window, by omega⟩

/-- A step of a pump keeps every armed deadline within the window. -/
theorem Backed.pump {idle wall : Nat} {past : List (Relay × Label)} {s : Relay} {moved : Side}
    {event : Event} {p : Pump} {clocks : Clocks} (backed : Backed idle wall past s)
    (pumped : Pumped idle s.clocks (s.pumps moved) event p clocks) :
    Backed idle wall (past ++ [(s, .pump moved event)])
      ⟨clocks, Function.update s.pumps moved p, stageAfter moved p.phase⟩ := by
  have inPast := backed.inPast
  have running : stageAfter moved p.phase = .selecting ∨
      ∃ side how, (Function.update s.pumps moved p side).phase = .done how := by
    cases phase : p.phase with
    | done how => exact .inr ⟨moved, how, by rw [Function.update_self, phase]⟩
    | start | reading _ _ | writing _ => exact .inl rfl
  rcases pumped.clock with ⟨count, rfl, rfl, notReading⟩ | ⟨noRead, rfl, arms⟩
  · refine ⟨?_, Nat.le_refl _, ?_, running⟩
    · rw [lastActivity_of_read]
      rfl
    · refine (Function.forall_update_iff s.pumps fun _ p => ∀ deadline fireAt,
        p.phase = .reading deadline fireAt →
          deadline ≤ s.clocks.nowMs + idle ∧ fireAt ≤ s.clocks.now + idle).mpr ⟨?_, ?_⟩
      · exact fun deadline fireAt waiting => absurd waiting (notReading deadline fireAt)
      · intro other _ deadline fireAt waiting
        obtain ⟨window, timer⟩ := backed.armed other deadline fireAt waiting
        exact ⟨by omega, timer⟩
  · have notRead : ¬ IsRead (.pump moved event) := not_isRead_pump noRead
    refine ⟨?_, inPast, ?_, running⟩
    · rw [lastActivity_of_not_read notRead]
      exact backed.shared
    · refine (Function.forall_update_iff s.pumps fun _ p => ∀ deadline fireAt,
        p.phase = .reading deadline fireAt →
          deadline ≤ s.clocks.shared + idle ∧ fireAt ≤ s.clocks.now + idle).mpr ⟨?_, ?_⟩
      · exact fun deadline fireAt waiting => bounds_of_arm inPast (arms deadline fireAt waiting)
      · exact fun other _ => backed.armed other

/-- A step of neither pump keeps them too. -/
theorem Backed.extend {idle wall : Nat} {past : List (Relay × Label)} {s next : Relay}
    {label : Label} (backed : Backed idle wall past s)
    (quiet : ∀ side event, label ≠ .pump side event) (pumps : next.pumps = s.pumps)
    (shared : next.clocks.shared = s.clocks.shared) (later : s.clocks.now ≤ next.clocks.now)
    (forward : s.clocks.nowMs ≤ next.clocks.nowMs)
    (running : next.stage = .selecting ∨ ∃ side how, (next.pumps side).phase = .done how) :
    Backed idle wall (past ++ [(s, label)]) next := by
  have noRead := not_isRead_of_quiet quiet
  refine ⟨?_, ?_, ?_, running⟩
  · rw [shared, backed.shared, lastActivity_of_not_read noRead]
  · rw [shared]
    exact Nat.le_trans backed.inPast forward
  · intro side deadline fireAt waiting
    rw [pumps] at waiting
    obtain ⟨window, timer⟩ := backed.armed side deadline fireAt waiting
    rw [shared]
    exact ⟨window, by omega⟩

theorem Backed.step {idle wall : Nat} {past : List (Relay × Label)} {s next : Relay}
    {label : Label} (backed : Backed idle wall past s)
    (forward : s.clocks.nowMs ≤ next.clocks.nowMs) (relayed : Relayed idle s label next) :
    Backed idle wall (past ++ [(s, label)]) next := by
  have running := backed.running
  cases relayed with
  | tick => exact backed.extend (fun _ _ h => by cases h) rfl rfl (Nat.le_succ _) forward running
  | adjust set =>
      exact backed.extend (fun _ _ h => by cases h) rfl rfl (Nat.le_refl _) forward running
  | pump _ pumped => exact backed.pump pumped
  | shutdownClient ended =>
      refine backed.extend (fun _ _ h => by cases h) rfl rfl (Nat.le_refl _) forward (.inr ?_)
      exact running.resolve_left fun selecting => by rw [selecting] at ended; cases ended
  | shutdownUpstream shut =>
      refine backed.extend (fun _ _ h => by cases h) rfl rfl (Nat.le_refl _) forward (.inr ?_)
      exact running.resolve_left fun selecting => by rw [selecting] at shut; cases shut

theorem run_backed {idle now wall : Nat} {fromUpstream fromClient : Bytes} {labels : List Label}
    {s : Relay}
    (runs : run (relayStep idle) (.start now wall fromUpstream fromClient) labels = some s)
    (forward : ∀ entry ∈ history (relayStep idle) (.start now wall fromUpstream fromClient) labels,
      Forward idle entry) :
    Backed idle wall
      (history (relayStep idle) (.start now wall fromUpstream fromClient) labels) s := by
  refine run_induction_of_forall (Backed idle wall)
    (fun state label => Forward idle (state, label)) ?_ ?_ forward runs
  · refine ⟨rfl, Nat.le_refl _, ?_, .inl rfl⟩
    intro side deadline fireAt waiting
    cases side <;> cases waiting
  · intro past state label next backed forward taken
    exact backed.step (forward next taken) (relayed_of_relayStep taken)

theorem run_task_backed {idle now wall : Nat} {fromUpstream fromClient : Bytes}
    {motions : List TaskLabel} {s : RelayTask}
    (runs : run (taskStep idle) (.start now wall fromUpstream fromClient) motions = some s)
    (forward : ∀ entry ∈ relayHistory
      (history (taskStep idle) (.start now wall fromUpstream fromClient) motions),
      Forward idle entry) :
    Backed idle wall
      (relayHistory (history (taskStep idle) (.start now wall fromUpstream fromClient) motions))
      s.relay := by
  obtain ⟨relays, passed⟩ := run_relay runs
  rw [← passed] at forward ⊢
  exact run_backed relays forward

/-! ## Who waits -/

theorem bothWriting_iff (s : Relay) (side : Side) :
    BothWriting s ↔ (s.pumps side).phase.IsWriting ∧ (s.pumps side.other).phase.IsWriting := by
  refine ⟨fun both => ⟨both side, both side.other⟩, fun both other => ?_⟩
  cases side <;> cases other <;> first | exact both.1 | exact both.2

theorem Backed.timerArmed {idle wall : Nat} {past : List (Relay × Label)} {s : Relay}
    (backed : Backed idle wall past s)
    (waits : ∀ side, (s.pumps side).phase.IsReading ∨ (s.pumps side).phase.IsWriting)
    (notBoth : ¬ BothWriting s) : TimerArmed idle (lastActivity wall past % u64Size) s := by
  obtain ⟨side, notWriting⟩ := not_forall.mp notBoth
  obtain ⟨deadline, fireAt, waiting⟩ := (waits side).resolve_right notWriting
  rw [← backed.shared]
  exact ⟨side, deadline, fireAt, waiting, (backed.armed side deadline fireAt waiting).1⟩

theorem BothWriting.not_timerArmed {s : Relay} (both : BothWriting s) (idle activity : Nat) :
    ¬ TimerArmed idle activity s := by
  rintro ⟨side, deadline, fireAt, waiting, -⟩
  obtain ⟨pending, writing⟩ := both side
  rw [writing] at waiting
  cases waiting

/-- A task that yields has just polled both pumps. -/
theorem Scheduled.not_bothWriting {idle : Nat} {s next : RelayTask} {motion : TaskLabel}
    (scheduled : Scheduled idle s motion next) (goesOn : ¬ Stalls (s, motion))
    (before : s.turn = .yielded → ¬ BothWriting s.relay) :
    next.turn = .yielded → ¬ BothWriting next.relay := by
  intro yielded
  cases scheduled with
  | poll _ _ _ | handsOver _ _ => cases yielded
  | @yields side polled _ =>
      exact fun both => goesOn ⟨rfl, side, polled, (bothWriting_iff s.relay side).mp both⟩
  | relay polled moved =>
      cases relayed_of_relayStep moved with
      | tick | adjust _ | shutdownClient _ | shutdownUpstream _ => exact before yielded
      | @pump side event _ _ _ _ =>
          have here := polled side event rfl
          rw [show s.turn = .yielded from yielded] at here
          cases here

theorem Stalls.suspended {idle : Nat} {s next : RelayTask} {motion : TaskLabel}
    (stalls : Stalls (s, motion)) (taken : taskStep idle s motion = some next) :
    Suspended next ∧ BothWriting next.relay := by
  obtain ⟨pending, side, polled, writes⟩ := stalls
  have both := (bothWriting_iff s.relay side).mpr writes
  cases scheduled_of_taskStep taken with
  | poll _ _ _ | relay _ _ => cases pending
  | handsOver first _ => cases polled.symm.trans first
  | yields _ _ => exact ⟨⟨rfl, fun other => .inr (both other)⟩, both⟩

theorem run_not_bothWriting {idle now wall : Nat} {fromUpstream fromClient : Bytes}
    {motions : List TaskLabel} {s : RelayTask}
    (runs : run (taskStep idle) (.start now wall fromUpstream fromClient) motions = some s)
    (goesOn : ∀ entry ∈ history (taskStep idle) (.start now wall fromUpstream fromClient) motions,
      ¬ Stalls entry) : s.turn = .yielded → ¬ BothWriting s.relay := by
  refine run_invariant_of_forall (fun s => s.turn = .yielded → ¬ BothWriting s.relay)
    (fun state motion => ¬ Stalls (state, motion)) ?_ ?_ goesOn runs
  · intro _ both
    obtain ⟨pending, writing⟩ := both .down
    cases writing
  · intro _ _ _ before goesOn taken
    exact (scheduled_of_taskStep taken).not_bothWriting goesOn before

/-! ## What makes both write -/

/-- Bytes are not read by one pump while the other is still writing. -/
def ReadsAlone (entry : Relay × Label) : Prop :=
  ∀ side count, entry.2 = .pump side (.read count) →
    ¬ (entry.1.pumps side.other).phase.IsWriting

/-- A pump writes after its step when it has just read, or was writing. -/
theorem Pumped.writing {idle : Nat} {t t' : Clocks} {p p' : Pump} {event : Event}
    (pumped : Pumped idle t p event p' t') (writes : p'.phase.IsWriting) :
    (∃ count, event = .read count) ∨ p.phase.IsWriting := by
  obtain ⟨pending, writes⟩ := writes
  cases pumped with
  | @read _ _ count _ _ _ _ => exact .inl ⟨count, rfl⟩
  | writePart writing _ _ => exact .inr ⟨_, writing⟩
  | start _ | eof _ _ | readFail _ | rearm _ _ _ | timeOut _ _ _ | writeAll _ _ _ | writeFail _ =>
      cases writes

/-- Both pumps come to write only when one reads while the other writes. -/
theorem Relayed.not_bothWriting {idle : Nat} {s next : Relay} {label : Label}
    (relayed : Relayed idle s label next) (alone : ReadsAlone (s, label))
    (notBoth : ¬ BothWriting s) : ¬ BothWriting next := by
  cases relayed with
  | @pump moved event p clocks _ pumped =>
      rw [bothWriting_iff _ moved]
      dsimp only
      rw [Function.update_self, Function.update_of_ne moved.other_ne]
      rintro ⟨own, other⟩
      rcases pumped.writing own with ⟨count, rfl⟩ | before
      · exact alone moved count rfl other
      · exact notBoth ((bothWriting_iff s moved).mpr ⟨before, other⟩)
  | tick | adjust _ | shutdownClient _ | shutdownUpstream _ => exact notBoth

/-- Reading with the other pump in `write_all` is what every stall begins with. -/
theorem not_stalls_of_readsAlone {idle now wall : Nat} {fromUpstream fromClient : Bytes}
    {motions : List TaskLabel} {s : RelayTask}
    (runs : run (taskStep idle) (.start now wall fromUpstream fromClient) motions = some s)
    (alone : ∀ entry ∈ relayHistory
      (history (taskStep idle) (.start now wall fromUpstream fromClient) motions),
      ReadsAlone entry) :
    ∀ entry ∈ history (taskStep idle) (.start now wall fromUpstream fromClient) motions,
      ¬ Stalls entry := by
  rintro entry member ⟨-, side, -, writes⟩
  obtain ⟨front, back, next, rfl, reaches, -, -⟩ := mem_history runs member
  obtain ⟨relays, passed⟩ := run_relay reaches
  refine run_invariant_of_forall (fun s => ¬ BothWriting s)
    (fun state label => ReadsAlone (state, label)) ?_ ?_ ?_ relays
    ((bothWriting_iff entry.1.relay side).mpr writes)
  · intro both
    obtain ⟨pending, writing⟩ := both .down
    cases writing
  · intro _ _ _ notBoth alone taken
    exact (relayed_of_relayStep taken).not_bothWriting alone notBoth
  · intro before inFront
    rw [passed] at inFront
    rw [history_append reaches] at alone
    exact alone before ((List.prefix_append _ _).filterMap _ |>.subset inFront)

/-! ## Sessions in which no data moves -/

/-- Time passes, the clock is set, or a timer fires. -/
def Quiet : Label → Prop
  | .tick | .adjust _ | .pump _ .fire => True
  | _ => False

/-- The runtime lets no time pass while a timer is due. -/
def Prompt (entry : Relay × Label) : Prop :=
  entry.2 = .tick → ∀ side deadline fireAt,
    (entry.1.pumps side).phase = .reading deadline fireAt → entry.1.clocks.now < fireAt

/-- What a quiet step can do. -/
theorem Relayed.quiet {idle : Nat} {s next : Relay} {label : Label}
    (relayed : Relayed idle s label next) (quiet : Quiet label) :
    (next.pumps = s.pumps ∧ next.stage = s.stage ∧ next.clocks.shared = s.clocks.shared ∧
        (next.clocks.now = s.clocks.now ∨
          label = .tick ∧ next.clocks.now = s.clocks.now + 1)) ∨
      ∃ side deadline fireAt, s.stage = .selecting ∧ next.clocks = s.clocks ∧
        (s.pumps side).phase = .reading deadline fireAt ∧ fireAt ≤ s.clocks.now ∧
        (∀ other, other ≠ side → next.pumps other = s.pumps other) ∧
        (next.stage = .ended side ∨
          deadline < s.clocks.deadline idle ∧ (next.pumps side).phase = arm idle s.clocks) := by
  cases relayed with
  | tick => exact .inl ⟨rfl, rfl, rfl, .inr ⟨rfl, rfl⟩⟩
  | adjust set => exact .inl ⟨rfl, rfl, rfl, .inl rfl⟩
  | @pump side event p clocks selecting pumped =>
      refine .inr ⟨side, ?_⟩
      have others : ∀ other, other ≠ side → Function.update s.pumps side p other = s.pumps other :=
        fun other different => Function.update_of_ne different p s.pumps
      cases pumped with
      | rearm waiting fired later =>
          refine ⟨_, _, selecting, rfl, waiting, fired, others, .inr ⟨later, ?_⟩⟩
          change (Function.update s.pumps side _ side).phase = _
          rw [Function.update_self]
      | timeOut waiting fired _ =>
          exact ⟨_, _, selecting, rfl, waiting, fired, others, .inl rfl⟩
      | start _ | read _ _ _ _ | eof _ _ | readFail _ | writePart _ _ _ | writeAll _ _ _
      | writeFail _ => exact absurd quiet id
  | shutdownClient _ | shutdownUpstream _ => exact absurd quiet id

/-- A session that has been quiet since `since`, and has not ended: `side` waits
under a timer that it armed before, or once more since. -/
structure Idling (idle since : Nat) (side : Side) (s : Relay) : Prop where
  inPast : s.clocks.shared ≤ s.clocks.nowMs
  waiting : s.stage = .selecting → ∃ deadline fireAt,
    (s.pumps side).phase = .reading deadline fireAt ∧
    (fireAt ≤ since + idle ∨
      deadline = s.clocks.deadline idle ∧ fireAt ≤ since + idle + idle) ∧
    (s.clocks.now ≤ fireAt ∨ s.clocks.now ≤ since)

theorem Idling.step {idle since : Nat} {side : Side} {s next : Relay} {label : Label}
    (idling : Idling idle since side s) (quiet : Quiet label) (prompt : Prompt (s, label))
    (forward : s.clocks.nowMs ≤ next.clocks.nowMs) (relayed : Relayed idle s label next) :
    Idling idle since side next := by
  have inPast := idling.inPast
  rcases relayed.quiet quiet with ⟨pumps, stage, shared, later⟩ |
    ⟨fired, deadline, fireAt, selecting, clocks, waiting, due, others, rearmed⟩
  · refine ⟨by omega, fun selecting => ?_⟩
    rw [stage] at selecting
    obtain ⟨deadline, fireAt, waiting, armed, early⟩ := idling.waiting selecting
    have same : next.clocks.deadline idle = s.clocks.deadline idle := by
      rw [Clocks.deadline, shared, Clocks.deadline]
    rw [pumps, same]
    refine ⟨deadline, fireAt, waiting, armed, ?_⟩
    rcases later with now | ⟨rfl, now⟩
    · omega
    · have before := prompt rfl side deadline fireAt waiting
      change s.clocks.now < fireAt at before
      omega
  · rw [← clocks] at inPast
    refine ⟨inPast, fun goesOn => ?_⟩
    rw [clocks] at inPast ⊢
    obtain ⟨deadline', fireAt', waiting', armed, early⟩ := idling.waiting selecting
    by_cases own : side = fired
    · subst own
      rw [waiting', Phase.reading.injEq] at waiting
      obtain ⟨rfl, rfl⟩ := waiting
      rcases rearmed with ended | ⟨newer, rearmed⟩
      · rw [ended] at goesOn
        cases goesOn
      · have first : fireAt' ≤ since + idle := armed.resolve_right fun both => by omega
        have timer : s.clocks.now + (s.clocks.deadline idle - s.clocks.nowMs) ≤
            s.clocks.now + idle := (bounds_of_arm inPast rfl).2
        refine ⟨_, _, rearmed, .inr ⟨rfl, by omega⟩, .inl (Nat.le_add_right _ _)⟩
    · rw [others side own]
      exact ⟨deadline', fireAt', waiting', armed, early⟩

/-- Under timers that fire in time a waiting session lasts two windows at most:
one until its timer fires, and one more if the window had moved meanwhile. -/
theorem quiet_run_bounded {idle wall : Nat} {past : List (Relay × Label)} {s later : Relay}
    {labels : List Label} (backed : Backed idle wall past s)
    (waits : ∀ side, (s.pumps side).phase.IsReading ∨ (s.pumps side).phase.IsWriting)
    (notBoth : ¬ BothWriting s) (quiet : ∀ label ∈ labels, Quiet label)
    (runs : run (relayStep idle) s labels = some later)
    (fair : ∀ entry ∈ history (relayStep idle) s labels, Prompt entry ∧ Forward idle entry)
    (goesOn : later.stage = .selecting) : later.clocks.now ≤ s.clocks.now + 2 * idle := by
  obtain ⟨side, notWriting⟩ := not_forall.mp notBoth
  obtain ⟨deadline, fireAt, waiting⟩ := (waits side).resolve_right notWriting
  have timer := (backed.armed side deadline fireAt waiting).2
  have idling := run_invariant_of_forall (Idling idle s.clocks.now side)
    (fun state label => Quiet label ∧ Prompt (state, label) ∧ Forward idle (state, label))
    ⟨backed.inPast, fun _ => ⟨deadline, fireAt, waiting, .inl timer, .inr (Nat.le_refl _)⟩⟩
    (fun _ _ next idling allowed taken =>
      idling.step allowed.1 allowed.2.1 (allowed.2.2 next taken) (relayed_of_relayStep taken))
    (fun entry member => ⟨?_, fair entry member⟩) runs
  · obtain ⟨deadline', fireAt', -, armed, early⟩ := idling.waiting goesOn
    omega
  · exact quiet entry.2 (label_mem_of_mem_history member)

/-- When both pumps write, no passing of time changes anything. -/
theorem quiet_run_of_bothWriting {idle : Nat} {s later : Relay} {labels : List Label}
    (both : BothWriting s) (quiet : ∀ label ∈ labels, Quiet label)
    (runs : run (relayStep idle) s labels = some later) :
    later.pumps = s.pumps ∧ later.stage = s.stage := by
  refine run_invariant_of_labels (fun later => later.pumps = s.pumps ∧ later.stage = s.stage)
    Quiet ⟨rfl, rfl⟩ ?_ quiet runs
  rintro state label next ⟨pumps, stage⟩ quiet taken
  rcases (relayed_of_relayStep taken).quiet quiet with ⟨pumps', stage', -⟩ |
    ⟨side, deadline, fireAt, -, -, waiting, -⟩
  · exact ⟨pumps'.trans pumps, stage'.trans stage⟩
  · obtain ⟨pending, writing⟩ := both side
    rw [pumps, writing] at waiting
    cases waiting

/-! ## When a timer is always armed -/

/-- Under a clock that does not run backwards, in every interleaving: a timer
within the window is armed whenever the task is suspended, exactly when no poll
of it leaves both pumps in `write_all`.  A run of that kind, once no data moves
and timers fire in time, lasts two windows at most; where both pumps are left in
`write_all`, it lasts for ever. -/
theorem timer_armed_iff {idle now wall : Nat} {fromUpstream fromClient : Bytes}
    {motions : List TaskLabel} {s : RelayTask}
    (runs : run (taskStep idle) (.start now wall fromUpstream fromClient) motions = some s)
    (forward : ∀ entry ∈ relayHistory
      (history (taskStep idle) (.start now wall fromUpstream fromClient) motions),
      Forward idle entry) :
    let start := RelayTask.start now wall fromUpstream fromClient
    ((∀ front middle, front <+: motions → run (taskStep idle) start front = some middle →
        Suspended middle → TimerArmed idle
          (lastActivity wall (relayHistory (history (taskStep idle) start front)) % u64Size)
          middle.relay) ↔
      ∀ entry ∈ history (taskStep idle) start motions, ¬ Stalls entry) ∧
      ∀ quiet later, Suspended s → (∀ label ∈ relayLabels quiet, Quiet label) →
        run (taskStep idle) s quiet = some later →
        (∀ entry ∈ relayHistory (history (taskStep idle) s quiet),
          Prompt entry ∧ Forward idle entry) →
        ((∀ entry ∈ history (taskStep idle) start motions, ¬ Stalls entry) →
          later.relay.stage = .selecting →
          later.relay.clocks.now ≤ s.relay.clocks.now + 2 * idle) ∧
        (BothWriting s.relay → later.relay.stage = .selecting) := by
  intro start
  have backed (front : List TaskLabel) (middle : RelayTask) (isPrefix : front <+: motions)
      (reaches : run (taskStep idle) start front = some middle) :
      Backed idle wall (relayHistory (history (taskStep idle) start front)) middle.relay :=
    run_task_backed reaches fun entry member =>
      forward entry ((history_isPrefix isPrefix reaches).filterMap _ |>.subset member)
  refine ⟨⟨?_, ?_⟩, ?_⟩
  · intro armed entry member stalls
    obtain ⟨front, next, isPrefix, taken, reaches⟩ := prefix_of_mem_history runs member
    obtain ⟨suspended, both⟩ := stalls.suspended taken
    exact both.not_timerArmed idle _ (armed front next isPrefix reaches suspended)
  · intro goesOn front middle isPrefix reaches suspended
    have goesOn' := fun entry member => goesOn entry (mem_history_mono isPrefix reaches member)
    exact (backed front middle isPrefix reaches).timerArmed suspended.2
      (run_not_bothWriting reaches goesOn' suspended.1)
  · intro quiet later suspended allQuiet goes fair
    obtain ⟨relays, passed⟩ := run_relay goes
    have backed := backed motions s (List.prefix_refl motions) runs
    rw [← passed] at fair
    refine ⟨fun goesOn => quiet_run_bounded backed suspended.2
      (run_not_bothWriting runs goesOn suspended.1) allQuiet relays fair, fun both => ?_⟩
    have selecting : s.relay.stage = .selecting := by
      refine backed.running.resolve_right fun ⟨side, how, done⟩ => ?_
      obtain ⟨pending, writing⟩ := both side
      rw [writing] at done
      cases done
    exact (quiet_run_of_bothWriting both allQuiet relays).2.trans selecting

def Label.isPump : Label → Bool
  | .pump _ _ => true
  | _ => false

/-- The pumps leave both clocks alone. -/
theorem forward_of_isPump {idle : Nat} {entry : Relay × Label} (pump : entry.2.isPump = true) :
    Forward idle entry := by
  intro next taken
  cases label : entry.2 with
  | pump side event =>
      rw [label] at taken
      cases relayed_of_relayStep taken with
      | pump _ pumped => exact Nat.le_of_eq (congrArg (· % u64Size) pumped.wall_eq.symm)
  | tick | adjust _ | shutdownClient | shutdownUpstream =>
      rw [label] at pump
      cases pump

theorem forward_of_pumps {idle : Nat} {start : RelayTask} {motions : List TaskLabel}
    (pumps : ∀ label ∈ relayLabels motions, label.isPump = true) :
    ∀ entry ∈ relayHistory (history (taskStep idle) start motions), Forward idle entry := by
  intro entry member
  obtain ⟨⟨state, motion⟩, inHistory, own⟩ := List.mem_filterMap.mp member
  obtain ⟨label, passed, rfl⟩ := Option.map_eq_some_iff.mp own
  have among := label_mem_of_mem_history inHistory
  exact forward_of_isPump (pumps label (List.mem_filterMap.mpr ⟨motion, among, passed⟩))

/-- Both pumps wait for their peers. -/
def waiting : List TaskLabel :=
  [.poll .down, .relay (.pump .down .start), .pending, .relay (.pump .up .start), .pending]

/-- The client stops reading, and goes on sending. -/
def oneStalled : List TaskLabel :=
  waiting ++
    [.poll .down, .relay (.pump .down (.read 1)), .pending, .pending,
      .poll .up, .relay (.pump .up (.read 1)), .relay (.pump .up (.write 1)), .pending, .pending]

/-- In each poll one pump at most is left in `write_all`. -/
theorem timer_armed_oneStalled :
    ∃ s, run (taskStep 300000) (.start 0 0 [1] [2]) oneStalled = some s ∧
      (s.relay.pumps .down).phase.IsWriting ∧
      TimerArmed 300000 (lastActivity 0 (relayHistory
        (history (taskStep 300000) (.start 0 0 [1] [2]) oneStalled)) % u64Size) s.relay := by
  obtain ⟨s, runs⟩ := Option.isSome_iff_exists.mp
    (by decide : (run (taskStep 300000) (.start 0 0 [1] [2]) oneStalled).isSome = true)
  have turn := congrArg (Option.map RelayTask.turn) runs
  have phaseDown := congrArg (Option.map fun s => (s.relay.pumps .down).phase) runs
  have phaseUp := congrArg (Option.map fun s => (s.relay.pumps .up).phase) runs
  have yielded : Turn.yielded = s.turn := Option.some.inj turn
  have down : Phase.writing [1] = (s.relay.pumps .down).phase := Option.some.inj phaseDown
  have up : arm 300000 ⟨0, 0, 0⟩ = (s.relay.pumps .up).phase := Option.some.inj phaseUp
  have suspended : Suspended s := by
    refine ⟨yielded.symm, fun side => ?_⟩
    cases side with
    | down => exact .inr ⟨_, down.symm⟩
    | up => exact .inl ⟨_, _, up.symm⟩
  have goesOn : ∀ entry ∈ history (taskStep 300000) (.start 0 0 [1] [2]) oneStalled,
      ¬ Stalls entry := by decide +kernel
  exact ⟨s, runs, ⟨_, down.symm⟩, (timer_armed_iff runs (forward_of_pumps (by decide))).1.mpr
    goesOn oneStalled s (List.prefix_refl _) runs suspended⟩

/-- Each pump reads a byte for a peer that has stopped reading. -/
def stalled : List TaskLabel :=
  waiting ++
    [.poll .down, .relay (.pump .down (.read 1)), .pending, .relay (.pump .up (.read 1)), .pending]

/-- Then no timer is armed, and the session outlasts any number of milliseconds. -/
theorem stalled_outlives_window :
    ∃ s, run (taskStep 300000) (.start 0 0 [1] [2]) stalled = some s ∧ Suspended s ∧
      (∀ entry ∈ relayHistory (history (taskStep 300000) (.start 0 0 [1] [2]) stalled),
        Forward 300000 entry) ∧
      (∀ activity, ¬ TimerArmed 300000 activity s.relay) ∧
      ∀ ticks, ∃ later,
        run (taskStep 300000) s (List.replicate ticks (.relay .tick)) = some later ∧
        later.relay.stage = .selecting := by
  obtain ⟨s, runs⟩ := Option.isSome_iff_exists.mp
    (by decide : (run (taskStep 300000) (.start 0 0 [1] [2]) stalled).isSome = true)
  have turn := congrArg (Option.map RelayTask.turn) runs
  have phaseDown := congrArg (Option.map fun s => (s.relay.pumps .down).phase) runs
  have phaseUp := congrArg (Option.map fun s => (s.relay.pumps .up).phase) runs
  have stage := congrArg (Option.map fun s => s.relay.stage) runs
  have yielded : Turn.yielded = s.turn := Option.some.inj turn
  have down : Phase.writing [1] = (s.relay.pumps .down).phase := Option.some.inj phaseDown
  have up : Phase.writing [2] = (s.relay.pumps .up).phase := Option.some.inj phaseUp
  have selecting : Stage.selecting = s.relay.stage := Option.some.inj stage
  have both : BothWriting s.relay := by
    intro side
    cases side with
    | down => exact ⟨[1], down.symm⟩
    | up => exact ⟨[2], up.symm⟩
  refine ⟨s, runs, ⟨yielded.symm, fun side => .inr (both side)⟩, forward_of_pumps (by decide),
    both.not_timerArmed 300000, fun ticks => ?_⟩
  obtain ⟨later, goes, -, -, -, stage⟩ := run_ticks 300000 s.relay ticks
  have passes := run_of_relay goes (by simp)
  rw [List.map_replicate] at passes
  exact ⟨_, passes, stage.trans selecting.symm⟩

end TailcatSocks.Rust
