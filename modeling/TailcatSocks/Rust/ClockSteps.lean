import TailcatSocks.Rust.RelayClock

/-!
# Setting the clock under a relay

Deadlines are times of the system clock, and timers run on the runtime's.  A
clock that is set may shorten a pump's wait, or give a read a stamp that does
not move the deadline which the other pump waits for.  Either way a pump may
time out on a session that is active.
-/

namespace TailcatSocks.Rust

open Library

/-- No read so far is less than a window old at the given time. -/
def IdleBy (idle : Nat) (past : List (Relay × Label)) (time : Nat) : Prop :=
  ∀ entry ∈ past, IsRead entry.2 → entry.1.clocks.now + idle ≤ time

/-- A pump that times out does so after a window without a read. -/
def TimesOutIdle (idle : Nat) (past : List (Relay × Label)) (s : Relay) : Prop :=
  ∀ side next, relayStep idle s (.pump side .fire) = some next →
    (next.pumps side).phase = .done .timedOut → IdleBy idle past s.clocks.now

/-! ## What a step must meet -/

/-- A pump begins to wait with this step. -/
inductive BeginsToWait (idle : Nat) (s : Relay) : Label → Prop where
  | start (side : Side) : BeginsToWait idle s (.pump side .start)
  | again {side : Side} {deadline fireAt : Nat} :
      (s.pumps side).phase = .reading deadline fireAt → deadline < s.clocks.deadline idle →
        BeginsToWait idle s (.pump side .fire)
  | written {side : Side} {pending : Bytes} {count : Nat} :
      (s.pumps side).phase = .writing pending → pending.drop count = [] →
        BeginsToWait idle s (.pump side (.write count))

/-- The clocks once a read has stored its time. -/
def Clocks.stamped (t : Clocks) : Clocks := ⟨t.now, t.wall, t.nowMs⟩

/-- A pump that begins to wait waits out the window of every read, by the
runtime's clock; and a read moves the deadline that the other pump waits for,
unless that pump's timer fires no earlier than a window from now. -/
structure ClockAllows (idle : Nat) (past : List (Relay × Label)) (s : Relay) (label : Label) :
    Prop where
  waits : BeginsToWait idle s label →
    IdleBy idle past (s.clocks.now + (s.clocks.deadline idle - s.clocks.nowMs))
  stamps : ∀ side count deadline fireAt, label = .pump side (.read count) →
    (s.pumps side.other).phase = .reading deadline fireAt →
      deadline < s.clocks.stamped.deadline idle ∨ s.clocks.now + idle ≤ max s.clocks.now fireAt

/-! ## The invariant -/

/-- When the timer of a waiting pump fires, the deadline has moved or every
read is a window old. -/
def WaitsOut (idle : Nat) (past : List (Relay × Label)) (t : Clocks) (p : Pump) : Prop :=
  ∀ deadline fireAt, p.phase = .reading deadline fireAt →
    deadline < t.deadline idle ∨ IdleBy idle past (max t.now fireAt)

structure Guarded (idle : Nat) (past : List (Relay × Label)) (s : Relay) : Prop where
  inPast : ∀ entry ∈ past, entry.1.clocks.now ≤ s.clocks.now
  waiting : ∀ side, WaitsOut idle past s.clocks (s.pumps side)

variable {idle : Nat} {past : List (Relay × Label)} {s next : Relay} {label : Label}

/-- The deadline depends on the stored time alone. -/
theorem Clocks.deadline_congr {t t' : Clocks} (same : t.shared = t'.shared) :
    t.deadline idle = t'.deadline idle := by
  rw [Clocks.deadline, Clocks.deadline, same]

theorem IdleBy.mono {time time' : Nat} (isIdle : IdleBy idle past time) (later : time ≤ time') :
    IdleBy idle past time' :=
  fun entry member isRead => Nat.le_trans (isIdle entry member isRead) later

theorem IdleBy.concat {time : Nat} (isIdle : IdleBy idle past time)
    (own : IsRead label → s.clocks.now + idle ≤ time) :
    IdleBy idle (past ++ [(s, label)]) time := forall_reads_concat isIdle own

theorem Guarded.timesOutIdle (guarded : Guarded idle past s) : TimesOutIdle idle past s := by
  intro side next fires returned
  obtain ⟨deadline, fireAt, waiting, fired, ⟨-, rearmed⟩ | ⟨notLater, -⟩⟩ := fire_cases fires
  · rw [rearmed] at returned
    cases returned
  · rcases guarded.waiting side deadline fireAt waiting with moved | isIdle
    · exact absurd moved (Nat.not_lt.mpr notLater)
    · rwa [max_eq_left fired] at isIdle

theorem Guarded.inPast_concat (guarded : Guarded idle past s)
    (later : s.clocks.now ≤ next.clocks.now) :
    ∀ entry ∈ past ++ [(s, label)], entry.1.clocks.now ≤ next.clocks.now := by
  intro entry member
  rcases List.mem_append.mp member with member | member
  · exact Nat.le_trans (guarded.inPast entry member) later
  · rw [List.mem_singleton.mp member]
    exact later

/-- A step of neither pump. -/
theorem Guarded.extend (guarded : Guarded idle past s)
    (quiet : ∀ side event, label ≠ .pump side event) (pumps : next.pumps = s.pumps)
    (shared : next.clocks.shared = s.clocks.shared) (later : s.clocks.now ≤ next.clocks.now) :
    Guarded idle (past ++ [(s, label)]) next := by
  refine ⟨guarded.inPast_concat later, fun side deadline fireAt waits => ?_⟩
  rw [pumps] at waits
  rw [Clocks.deadline_congr shared]
  refine (guarded.waiting side deadline fireAt waits).imp_right fun isIdle => ?_
  refine (isIdle.mono (by omega)).concat fun isRead => ?_
  exact absurd isRead (not_isRead_of_quiet quiet)

/-- A pump that waits after its step, which is no read, begins to wait with it. -/
theorem beginsToWait_of_pumped {t : Clocks} {side : Side} {event : Event} {p : Pump}
    {deadline fireAt : Nat} (pumped : Pumped idle s.clocks (s.pumps side) event p t)
    (waits : p.phase = .reading deadline fireAt) : BeginsToWait idle s (.pump side event) := by
  cases pumped with
  | start _ => exact .start side
  | rearm waiting _ later => exact .again waiting later
  | writeAll writing _ last => exact .written writing last
  | read _ _ _ _ | eof _ _ | readFail _ | timeOut _ _ _ | writePart _ _ _ | writeFail _ =>
      cases waits

/-- A step of a pump keeps the invariant, when the clocks allow it. -/
theorem Guarded.pump {moved : Side} {event : Event} {p : Pump} {t : Clocks} {stage : Stage}
    (guarded : Guarded idle past s) (allows : ClockAllows idle past s (.pump moved event))
    (pumped : Pumped idle s.clocks (s.pumps moved) event p t) :
    Guarded idle (past ++ [(s, .pump moved event)])
      ⟨t, Function.update s.pumps moved p, stage⟩ := by
  rcases pumped.clock with ⟨count, rfl, rfl, notReading⟩ | ⟨noRead, rfl, arms⟩
  · refine ⟨guarded.inPast_concat (Nat.le_refl _), ?_⟩
    refine (Function.forall_update_iff s.pumps fun _ p => WaitsOut idle _ _ p).mpr
      ⟨fun deadline fireAt waits => absurd waits (notReading deadline fireAt), ?_⟩
    intro other different deadline fireAt waits
    rw [Side.eq_other different.symm] at waits
    refine (allows.stamps moved count deadline fireAt rfl waits).imp_right fun enough => ?_
    have older : IdleBy idle past (max s.clocks.now fireAt) := fun entry member _ =>
      Nat.le_trans (Nat.add_le_add_right (guarded.inPast entry member) idle) enough
    exact older.concat fun _ => enough
  · have notRead : ¬ IsRead (.pump moved event) := not_isRead_pump noRead
    refine ⟨guarded.inPast_concat (Nat.le_refl _), ?_⟩
    refine (Function.forall_update_iff s.pumps fun _ p => WaitsOut idle _ _ p).mpr ⟨?_, ?_⟩
    · intro deadline fireAt waits
      have armed := arms deadline fireAt waits
      rw [arm, Phase.reading.injEq] at armed
      have isIdle := allows.waits (beginsToWait_of_pumped pumped waits)
      rw [armed.2] at isIdle
      exact .inr ((isIdle.mono (by omega)).concat fun isRead => absurd isRead notRead)
    · intro other different deadline fireAt waits
      refine (guarded.waiting other deadline fireAt waits).imp_right fun isIdle => ?_
      exact isIdle.concat fun isRead => absurd isRead notRead

theorem Guarded.step (guarded : Guarded idle past s) (allows : ClockAllows idle past s label)
    (relayed : Relayed idle s label next) : Guarded idle (past ++ [(s, label)]) next := by
  cases relayed with
  | tick => exact guarded.extend (fun _ _ h => by cases h) rfl rfl (Nat.le_succ _)
  | adjust wall => exact guarded.extend (fun _ _ h => by cases h) rfl rfl (Nat.le_refl _)
  | pump _ pumped => exact guarded.pump allows pumped
  | shutdownClient _ | shutdownUpstream _ =>
      exact guarded.extend (fun _ _ h => by cases h) rfl rfl (Nat.le_refl _)

/-- Every step of a history is one that the clocks allow. -/
def AllAllowed (idle : Nat) (whole : List (Relay × Label)) : Prop :=
  ∀ past entry, past ++ [entry] <+: whole → ClockAllows idle past entry.1 entry.2

theorem run_guarded {now wall : Nat} {fromUpstream fromClient : Bytes} {labels : List Label}
    (runs : run (relayStep idle) (.start now wall fromUpstream fromClient) labels = some s)
    (allowed : AllAllowed idle
      (history (relayStep idle) (.start now wall fromUpstream fromClient) labels)) :
    Guarded idle (history (relayStep idle) (.start now wall fromUpstream fromClient) labels) s := by
  refine run_induction_of_past (Guarded idle) (ClockAllows idle) ?_ ?_ allowed runs
  · refine ⟨fun entry member => absurd member List.not_mem_nil, ?_⟩
    intro side deadline fireAt waits
    cases side <;> cases waits
  · intro past state label next guarded allows taken
    exact guarded.step allows (relayed_of_relayStep taken)

/-! ## Quiet time -/

theorem clockAllows_tick : ClockAllows idle past s .tick :=
  ⟨fun begins => (by cases begins), fun _ _ _ _ same => by cases same⟩

theorem Guarded.ticks {count : Nat} (guarded : Guarded idle past s)
    (runs : run (relayStep idle) s (List.replicate count .tick) = some next) :
    Guarded idle (past ++ history (relayStep idle) s (List.replicate count .tick)) next := by
  refine run_induction_of_forall (fun later s => Guarded idle (past ++ later) s)
    (fun _ label => label = .tick) ?_ ?_ ?_ runs
  · rwa [List.append_nil]
  · rintro later state _ after guarded rfl taken
    rw [← List.append_assoc]
    exact guarded.step clockAllows_tick (relayed_of_relayStep taken)
  · exact fun entry member => List.eq_of_mem_replicate (label_mem_of_mem_history member)

theorem timesOut_of_fired {side : Side} {deadline fireAt : Nat} (selecting : s.stage = .selecting)
    (waiting : (s.pumps side).phase = .reading deadline fireAt) (fired : fireAt ≤ s.clocks.now)
    (notLater : s.clocks.deadline idle ≤ deadline) :
    ∃ next, relayStep idle s (.pump side .fire) = some next ∧
      (next.pumps side).phase = .done .timedOut := by
  refine ⟨⟨s.clocks, Function.update s.pumps side ⟨(s.pumps side).source, (s.pumps side).sent,
    .done .timedOut⟩, .ended side⟩, ?_, ?_⟩
  · simp only [relayStep, selecting, pumpStep, waiting, if_pos fired,
      if_neg (Nat.not_lt.mpr notLater)]
    rfl
  · simp only [Function.update_self]

section Run

variable {now wall : Nat} {fromUpstream fromClient : Bytes} {labels front : List Label}

/-- In every state the run passes, and however long nothing happens then, a pump
that times out does so after a window without a read. -/
def AlwaysTimesOutIdle (idle : Nat) (start : Relay) (labels : List Label) : Prop :=
  ∀ front count s, front <+: labels →
    run (relayStep idle) start (front ++ List.replicate count .tick) = some s →
      TimesOutIdle idle (history (relayStep idle) start (front ++ List.replicate count .tick)) s

/-- A pump whose deadline does not move waits out the window of every read. -/
theorem AlwaysTimesOutIdle.covers {start : Relay} {side : Side} {deadline fireAt : Nat}
    (always : AlwaysTimesOutIdle idle start labels) (within : front <+: labels)
    (reaches : run (relayStep idle) start front = some s) (selecting : s.stage = .selecting)
    (waiting : (s.pumps side).phase = .reading deadline fireAt)
    (notLater : s.clocks.deadline idle ≤ deadline) :
    IdleBy idle (history (relayStep idle) start front) (max s.clocks.now fireAt) := by
  obtain ⟨last, runs, later, shared, pumps, stage⟩ :=
    run_ticks idle s (fireAt - s.clocks.now)
  have time : last.clocks.now = max s.clocks.now fireAt := by omega
  have fired : fireAt ≤ last.clocks.now := by omega
  rw [← pumps] at waiting
  rw [← Clocks.deadline_congr shared] at notLater
  obtain ⟨next, fires, returned⟩ :=
    timesOut_of_fired (stage.trans selecting) waiting fired notLater
  have isIdle := always front _ last within ((run_append reaches).trans runs) side next fires
    returned
  rw [← time]
  exact fun entry member isRead =>
    isIdle entry (mem_history_mono (List.prefix_append front _) reaches member) isRead

theorem armed_of_pumped {side : Side} {event : Event} {p : Pump} {t : Clocks}
    (begins : BeginsToWait idle s (.pump side event))
    (pumped : Pumped idle s.clocks (s.pumps side) event p t) :
    p.phase = arm idle s.clocks ∧ t = s.clocks := by
  cases begins with
  | start _ =>
      cases pumped with
      | start _ => exact ⟨rfl, rfl⟩
  | again waiting later =>
      cases pumped with
      | rearm _ _ _ => exact ⟨rfl, rfl⟩
      | timeOut waiting' _ notLater =>
          rw [waiting, Phase.reading.injEq] at waiting'
          exact absurd later (Nat.not_lt.mpr (waiting'.1 ▸ notLater))
  | written writing last =>
      cases pumped with
      | writePart writing' _ more =>
          rw [writing, Phase.writing.injEq] at writing'
          exact absurd last (writing' ▸ more)
      | writeAll _ _ _ => exact ⟨rfl, rfl⟩

/-- A pump that begins to wait does so under the timer of the loop's top. -/
theorem armed_of_beginsToWait (begins : BeginsToWait idle s label)
    (taken : relayStep idle s label = some next) :
    ∃ side, (next.pumps side).phase = arm idle s.clocks ∧ next.clocks = s.clocks ∧
      next.stage = .selecting := by
  cases relayed_of_relayStep taken with
  | @pump side event p t selecting pumped =>
      obtain ⟨armed, rfl⟩ := armed_of_pumped begins pumped
      refine ⟨side, ?_, rfl, ?_⟩
      · simp only [Function.update_self]
        exact armed
      · dsimp only
        rw [armed]
        rfl
  | tick | adjust _ | shutdownClient _ | shutdownUpstream _ => cases begins

theorem stamped_of_read {side : Side} {count : Nat}
    (taken : relayStep idle s (.pump side (.read count)) = some next) :
    next.clocks = s.clocks.stamped ∧ next.pumps side.other = s.pumps side.other ∧
      next.stage = .selecting := by
  cases relayed_of_relayStep taken with
  | pump selecting pumped =>
      cases pumped with
      | read _ _ _ _ =>
          refine ⟨rfl, Function.update_of_ne ?_ _ _, rfl⟩
          cases side <;> decide

theorem AlwaysTimesOutIdle.allows {start : Relay} (always : AlwaysTimesOutIdle idle start labels)
    (within : front ++ [label] <+: labels) (reaches : run (relayStep idle) start front = some s)
    (taken : relayStep idle s label = some next) :
    ClockAllows idle (history (relayStep idle) start front) s label := by
  have goesOn : run (relayStep idle) start (front ++ [label]) = some next := by
    rw [run_append reaches, run_cons_of_step _ taken, run_nil]
  have passed : history (relayStep idle) start (front ++ [label]) =
      history (relayStep idle) start front ++ [(s, label)] := history_concat reaches
  constructor
  · intro begins
    obtain ⟨side, armed, clocks, selecting⟩ := armed_of_beginsToWait begins taken
    have covers := always.covers within goesOn selecting armed (by rw [clocks])
    rw [passed, clocks, max_eq_right (Nat.le_add_right _ _)] at covers
    exact fun entry member => covers entry (List.mem_append_left _ member)
  · rintro side count deadline fireAt rfl waiting
    refine or_iff_not_imp_left.mpr fun notLater => ?_
    obtain ⟨clocks, unmoved, selecting⟩ := stamped_of_read taken
    have covers := always.covers within goesOn selecting (unmoved ▸ waiting)
      (clocks ▸ Nat.not_lt.mp notLater)
    rw [passed, clocks] at covers
    exact covers _ (List.mem_append_right _ (List.mem_singleton_self _)) ⟨side, count, rfl⟩

/-- A pump times out only after a window without a read, in every state that a
run passes and however long nothing happens then, exactly when each of its
steps finds the clocks such that a pump that begins to wait waits out the window
of every read, and a read moves the other pump's deadline or meets a timer that
fires no earlier than a window from then. -/
theorem timesOutIdle_iff
    (runs : run (relayStep idle) (.start now wall fromUpstream fromClient) labels = some s) :
    AlwaysTimesOutIdle idle (.start now wall fromUpstream fromClient) labels ↔
      AllAllowed idle
        (history (relayStep idle) (.start now wall fromUpstream fromClient) labels) := by
  constructor
  · intro always past entry goesOn
    obtain ⟨front, next, within, rfl, reaches, taken⟩ := step_of_prefix_history runs goesOn
    exact always.allows within reaches taken
  · intro allowed front count last within quiet
    obtain ⟨middle, reaches, ticks⟩ := run_append_eq_some quiet
    have guarded := run_guarded reaches fun past entry goesOn =>
      allowed past entry (goesOn.trans (history_isPrefix within reaches))
    rw [history_append reaches]
    exact (guarded.ticks ticks).timesOutIdle

/-! ## A steady clock -/

/-- Under a clock that is not set, what a run passes keeps the two clocks in step. -/
theorem timed_of_steady {middle : Relay}
    (runs : run (relayStep idle) (.start now wall fromUpstream fromClient) labels = some s)
    (steady : ∀ set, Label.adjust set ∉ labels) (fits : s.clocks.wall + idle < u64Size)
    (within : front <+: labels)
    (reaches : run (relayStep idle) (.start now wall fromUpstream fromClient) front = some middle) :
    middle.clocks.wall + idle < u64Size ∧ Timed idle now wall
      (history (relayStep idle) (.start now wall fromUpstream fromClient) front) middle := by
  obtain ⟨back, rfl⟩ := within
  rw [run_append reaches] at runs
  have later : middle.clocks.wall ≤ s.clocks.wall :=
    run_invariant_of_labels (fun t => middle.clocks.wall ≤ t.clocks.wall)
      (fun label => ∀ set, label ≠ .adjust set) (Nat.le_refl _)
      (fun _ _ _ before steadyLabel taken =>
        Nat.le_trans before ((relayed_of_relayStep taken).wall_le steadyLabel))
      (fun _ member set same => steady set (List.mem_append_right _ (same.subst member))) runs
  have small : middle.clocks.wall + idle < u64Size := by omega
  have steadyFront : ∀ set, Label.adjust set ∉ front :=
    fun set member => steady set (List.mem_append_left _ member)
  exact ⟨small, run_timed reaches steadyFront small⟩

/-- A clock that is not set allows every step. -/
theorem allAllowed_of_steady
    (runs : run (relayStep idle) (.start now wall fromUpstream fromClient) labels = some s)
    (steady : ∀ set, Label.adjust set ∉ labels) (fits : s.clocks.wall + idle < u64Size) :
    AllAllowed idle
      (history (relayStep idle) (.start now wall fromUpstream fromClient) labels) := by
  intro past entry goesOn
  obtain ⟨front, next, within, rfl, reaches, taken⟩ := step_of_prefix_history runs goesOn
  have inFront : front <+: labels := (List.prefix_append _ _).trans within
  obtain ⟨small, timed⟩ := timed_of_steady runs steady fits inFront reaches
  have inStep := timed.inStep
  have inPast := timed.inPast
  constructor
  · intro _ read member isRead
    obtain ⟨first, _, _, split, before, -⟩ := mem_history reaches member
    have inFirst : first <+: labels := (split ▸ List.prefix_append _ _).trans inFront
    have readInStep := (timed_of_steady runs steady fits inFirst before).2.inStep
    have stored := timed.reads read member isRead
    rw [deadline_eq (by omega), nowMs_eq (by omega)]
    omega
  · intro side count deadline fireAt _ waiting
    have notEarly := (timed.armed side.other deadline fireAt waiting).notEarly
    have stamped : entry.1.clocks.stamped.shared = entry.1.clocks.wall := nowMs_eq (by omega)
    rw [deadline_eq (by rw [stamped]; exact small), stamped]
    omega

end Run

/-- The session of `readAfterTick` is not cut while it is active. -/
theorem timesOutIdle_readAfterTick :
    AlwaysTimesOutIdle 1 (.start 0 0 [] [71]) readAfterTick := by
  have runs : run (relayStep 1) (.start 0 0 [] [71]) readAfterTick = some _ := rfl
  exact (timesOutIdle_iff runs).mpr
    (allAllowed_of_steady runs (by simp [readAfterTick]) (by decide))

/-- The system clock is set forward by a window while a byte is written. -/
def setForward : List Label :=
  [.pump .down .start, .pump .up .start, .pump .up (.read 1), .adjust 300000, .pump .up (.write 1)]

/-- The pump that has just moved a byte then times out at once. -/
theorem active_session_cut :
    ∃ s, run (relayStep 300000) (.start 0 0 [] [71]) setForward = some s ∧
      ¬ TimesOutIdle 300000 (history (relayStep 300000) (.start 0 0 [] [71]) setForward) s := by
  refine ⟨_, rfl, fun timesOutIdle => ?_⟩
  have isIdle := timesOutIdle .up _ rfl rfl _ (.tail _ (.tail _ (.head _))) ⟨.up, 1, rfl⟩
  exact absurd isIdle (by decide)

end TailcatSocks.Rust
