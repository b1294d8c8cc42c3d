import TailcatSocks.Rust.Relay

/-!
# The shared idle clock

Both pumps store the time of a read in one cell and take their deadlines from
it.  A pump that waits keeps the deadline it had when it began to wait, however
far the cell has moved since; it learns of the other's reads when its timer
fires.  The invariant ties each deadline to the step that computed it.
-/

namespace TailcatSocks.Rust

open Library

/-- A read by either pump; it always moves at least one byte. -/
def IsRead (label : Label) : Prop := ∃ side count, label = .pump side (.read count)

theorem not_isRead_pump {side : Side} {event : Event} (noRead : ∀ count, event ≠ .read count) :
    ¬ IsRead (.pump side event) := by
  rintro ⟨side, count, same⟩
  cases same
  exact noRead count rfl

theorem not_isRead_of_quiet {label : Label} (quiet : ∀ side event, label ≠ .pump side event) :
    ¬ IsRead label := by
  rintro ⟨side, count, same⟩
  exact quiet side _ same

/-- What holds of every read so far, after one step more. -/
theorem forall_reads_concat {P : Relay × Label → Prop} {past : List (Relay × Label)} {s : Relay}
    {label : Label} (before : ∀ entry ∈ past, IsRead entry.2 → P entry)
    (own : IsRead label → P (s, label)) :
    ∀ entry ∈ past ++ [(s, label)], IsRead entry.2 → P entry := by
  intro entry member
  rcases List.mem_append.mp member with member | member
  · exact before entry member
  · rw [List.mem_singleton.mp member]
    exact own

/-- The time of the latest read, or the given one when there was none. -/
def lastActivity (start : Nat) (past : List (Relay × Label)) : Nat :=
  past.foldl
    (fun latest entry =>
      match entry.2 with
      | .pump _ (.read _) => entry.1.clocks.wall
      | _ => latest) start

theorem lastActivity_of_read {start : Nat} {past : List (Relay × Label)} {s : Relay} {side : Side}
    {count : Nat} :
    lastActivity start (past ++ [(s, .pump side (.read count))]) = s.clocks.wall := by
  rw [lastActivity, List.foldl_append]
  rfl

theorem lastActivity_of_not_read {start : Nat} {past : List (Relay × Label)} {s : Relay}
    {label : Label} (other : ¬ IsRead label) :
    lastActivity start (past ++ [(s, label)]) = lastActivity start past := by
  rw [lastActivity, List.foldl_append, List.foldl_cons, List.foldl_nil]
  split
  · next side count same => exact absurd ⟨side, count, same⟩ other
  · rfl

/-! ## The invariant -/

/-- A pump's last step, after which the history goes on with `after`, computed
this deadline; the cell is as it was then, or the other pump has read since. -/
def ComputedAt (idle : Nat) (past : List (Relay × Label)) (shared : Nat) (side : Side)
    (deadline : Nat) : Prop :=
  ∃ before arming after event, past = before ++ arming :: after ∧
    arming.2 = .pump side event ∧ deadline = arming.1.clocks.shared + idle ∧
    (∀ entry ∈ after, ∀ event', entry.2 ≠ .pump side event') ∧
    (shared = arming.1.clocks.shared ∨
      ∃ entry ∈ after, ∃ count, entry.2 = .pump side.other (.read count))

/-- An armed deadline lies within the window, its timer does not fire before
it, and the step that computed it is known. -/
structure Armed (idle now wall : Nat) (past : List (Relay × Label)) (shared : Nat) (side : Side)
    (deadline fireAt : Nat) : Prop where
  inWindow : deadline ≤ shared + idle
  notEarly : deadline + now ≤ fireAt + wall
  computed : ComputedAt idle past shared side deadline

/-- What holds of a history and the state it leads to, when the system clock
goes in step with the runtime's. -/
structure Timed (idle now wall : Nat) (past : List (Relay × Label)) (s : Relay) : Prop where
  inStep : s.clocks.wall + now = s.clocks.now + wall
  shared : s.clocks.shared = lastActivity wall past
  inPast : s.clocks.shared ≤ s.clocks.wall
  reads : ∀ entry ∈ past, IsRead entry.2 → entry.1.clocks.wall ≤ s.clocks.shared
  armed : ∀ side deadline fireAt, (s.pumps side).phase = .reading deadline fireAt →
    Armed idle now wall past s.clocks.shared side deadline fireAt

theorem nowMs_eq {t : Clocks} (fits : t.wall < u64Size) : t.nowMs = t.wall :=
  Nat.mod_eq_of_lt fits

theorem deadline_eq {idle : Nat} {t : Clocks} (fits : t.shared + idle < u64Size) :
    t.deadline idle = t.shared + idle := by
  rw [Clocks.deadline, Nat.mod_eq_of_lt (by omega : idle < u64Size), Nat.mod_eq_of_lt fits]

/-- What the top of the loop arms. -/
theorem armed_of_arm {idle now wall : Nat} {past : List (Relay × Label)} {s : Relay} {side : Side}
    {event : Event} {deadline fireAt : Nat} (timed : Timed idle now wall past s)
    (fits : s.clocks.wall + idle < u64Size)
    (arms : arm idle s.clocks = .reading deadline fireAt) :
    Armed idle now wall (past ++ [(s, .pump side event)]) s.clocks.shared side deadline fireAt := by
  have inPast := timed.inPast
  have inStep := timed.inStep
  rw [arm, deadline_eq (by omega), nowMs_eq (by omega), Phase.reading.injEq] at arms
  obtain ⟨rfl, rfl⟩ := arms
  refine ⟨Nat.le_refl _, by omega, past, _, [], event, rfl, rfl, rfl, ?_, .inl rfl⟩
  exact fun entry member => absurd member List.not_mem_nil

/-- A step of something else than the pump leaves its deadline armed. -/
theorem Armed.extend {idle now wall : Nat} {past : List (Relay × Label)} {shared shared' : Nat}
    {side : Side} {deadline fireAt : Nat} {entry : Relay × Label}
    (armed : Armed idle now wall past shared side deadline fireAt)
    (other : ∀ event, entry.2 ≠ .pump side event) (later : shared ≤ shared')
    (same : shared' = shared ∨ ∃ count, entry.2 = .pump side.other (.read count)) :
    Armed idle now wall (past ++ [entry]) shared' side deadline fireAt := by
  obtain ⟨before, arming, after, event, split, isOwn, computed, others, since⟩ := armed.computed
  refine ⟨Nat.le_trans armed.inWindow (by omega), armed.notEarly, before, arming,
    after ++ [entry], event, ?_, isOwn, computed, ?_, ?_⟩
  · rw [split, List.append_assoc, List.cons_append]
  · intro entry' member
    rcases List.mem_append.mp member with member | member
    · exact others entry' member
    · rw [List.mem_singleton.mp member]
      exact other
  · rcases same with rfl | ⟨count, isRead⟩
    · rcases since with unchanged | ⟨entry', member, count, isRead⟩
      · exact .inl unchanged
      · exact .inr ⟨entry', List.mem_append_left _ member, count, isRead⟩
    · exact .inr ⟨entry, List.mem_append_right _ (List.mem_singleton_self _), count, isRead⟩

/-- A step of neither pump keeps the invariant when time does not go back. -/
theorem Timed.extend {idle now wall : Nat} {past : List (Relay × Label)} {s next : Relay}
    {label : Label} (timed : Timed idle now wall past s)
    (quiet : ∀ side event, label ≠ .pump side event)
    (pumps : next.pumps = s.pumps) (shared : next.clocks.shared = s.clocks.shared)
    (inStep : next.clocks.wall + now = next.clocks.now + wall)
    (later : s.clocks.wall ≤ next.clocks.wall) :
    Timed idle now wall (past ++ [(s, label)]) next := by
  have noRead := not_isRead_of_quiet quiet
  refine ⟨inStep, ?_, ?_, ?_, ?_⟩
  · rw [shared, timed.shared, lastActivity_of_not_read noRead]
  · rw [shared]
    exact Nat.le_trans timed.inPast later
  · rw [shared]
    exact forall_reads_concat timed.reads fun isRead => absurd isRead noRead
  · intro side deadline fireAt waiting
    rw [pumps] at waiting
    rw [shared]
    exact (timed.armed side deadline fireAt waiting).extend (quiet side) (Nat.le_refl _) (.inl rfl)

/-- What a step of a pump does to the clocks and to its own deadline. -/
theorem Pumped.clock {idle : Nat} {t t' : Clocks} {p p' : Pump} {event : Event}
    (pumped : Pumped idle t p event p' t') :
    (∃ count, event = .read count ∧ t' = ⟨t.now, t.wall, t.nowMs⟩ ∧
        ∀ deadline fireAt, p'.phase ≠ .reading deadline fireAt) ∨
      ((∀ count, event ≠ .read count) ∧ t' = t ∧
        ∀ deadline fireAt, p'.phase = .reading deadline fireAt →
          arm idle t = .reading deadline fireAt) := by
  cases pumped with
  | @read deadline fireAt count _ _ _ _ =>
      exact .inl ⟨count, rfl, rfl, fun _ _ h => by cases h⟩
  | start _ | rearm _ _ _ | writeAll _ _ _ =>
      exact .inr ⟨(fun _ h => by cases h), rfl, fun _ _ h => h⟩
  | eof _ _ | readFail _ | timeOut _ _ _ | writePart _ _ _ | writeFail _ =>
      exact .inr ⟨(fun _ h => by cases h), rfl, fun _ _ h => by cases h⟩

theorem Pumped.wall_eq {idle : Nat} {t t' : Clocks} {p p' : Pump} {event : Event}
    (pumped : Pumped idle t p event p' t') : t'.wall = t.wall := by
  rcases pumped.clock with ⟨count, -, rfl, -⟩ | ⟨-, rfl, -⟩ <;> rfl

/-- After a step of one pump both deadlines are armed, when its own is. -/
theorem Timed.armed_update {idle now wall shared : Nat} {past : List (Relay × Label)} {s : Relay}
    {moved : Side} {event : Event} {p : Pump} (timed : Timed idle now wall past s)
    (own : ∀ deadline fireAt, p.phase = .reading deadline fireAt →
      Armed idle now wall (past ++ [(s, .pump moved event)]) shared moved deadline fireAt)
    (later : s.clocks.shared ≤ shared)
    (same : shared = s.clocks.shared ∨ ∃ count, event = .read count) (side : Side) :
    ∀ deadline fireAt, (Function.update s.pumps moved p side).phase = .reading deadline fireAt →
      Armed idle now wall (past ++ [(s, .pump moved event)]) shared side deadline fireAt := by
  refine (Function.forall_update_iff s.pumps fun side p =>
    ∀ deadline fireAt, p.phase = .reading deadline fireAt →
      Armed idle now wall (past ++ [(s, .pump moved event)]) shared side deadline fireAt).mpr
    ⟨own, fun other different deadline fireAt waiting => ?_⟩ side
  refine (timed.armed other deadline fireAt waiting).extend ?_ later ?_
  · intro event' label
    cases label
    exact different rfl
  · rcases same with unchanged | ⟨count, rfl⟩
    · exact .inl unchanged
    · exact .inr ⟨count, by rw [Side.eq_other different]⟩

/-- A step of a pump keeps the invariant. -/
theorem Timed.pump {idle now wall : Nat} {past : List (Relay × Label)} {s : Relay} {moved : Side}
    {event : Event} {p : Pump} {clocks : Clocks} {stage : Stage}
    (timed : Timed idle now wall past s) (fits : s.clocks.wall + idle < u64Size)
    (pumped : Pumped idle s.clocks (s.pumps moved) event p clocks) :
    Timed idle now wall (past ++ [(s, .pump moved event)])
      ⟨clocks, Function.update s.pumps moved p, stage⟩ := by
  have inPast := timed.inPast
  rcases pumped.clock with ⟨count, rfl, rfl, notReading⟩ | ⟨noRead, rfl, arms⟩
  · rw [nowMs_eq (by omega)]
    refine ⟨timed.inStep, lastActivity_of_read.symm, Nat.le_refl _, ?_, ?_⟩
    · refine forall_reads_concat (fun entry member isRead => ?_) fun _ => Nat.le_refl _
      exact Nat.le_trans (timed.reads entry member isRead) inPast
    · exact timed.armed_update
        (fun deadline fireAt waiting => absurd waiting (notReading deadline fireAt))
        inPast (.inr ⟨count, rfl⟩)
  · have notRead : ¬ IsRead (.pump moved event) := not_isRead_pump noRead
    refine ⟨timed.inStep, ?_, inPast, ?_, ?_⟩
    · rw [lastActivity_of_not_read notRead]
      exact timed.shared
    · exact forall_reads_concat timed.reads fun isRead => absurd isRead notRead
    · exact timed.armed_update
        (fun deadline fireAt waiting => armed_of_arm timed fits (arms deadline fireAt waiting))
        (Nat.le_refl _) (.inl rfl)

theorem Timed.step {idle now wall : Nat} {past : List (Relay × Label)} {s next : Relay}
    {label : Label} (timed : Timed idle now wall past s) (steady : ∀ set, label ≠ .adjust set)
    (fits : next.clocks.wall + idle < u64Size) (relayed : Relayed idle s label next) :
    Timed idle now wall (past ++ [(s, label)]) next := by
  have inStep := timed.inStep
  cases relayed with
  | tick =>
      refine timed.extend (fun _ _ h => by cases h) rfl rfl ?_ (Nat.le_succ _)
      change s.clocks.wall + 1 + now = s.clocks.now + 1 + wall
      omega
  | adjust set => exact absurd rfl (steady set)
  | @pump side event p clocks _ pumped =>
      change clocks.wall + idle < u64Size at fits
      rw [pumped.wall_eq] at fits
      exact timed.pump fits pumped
  | shutdownClient _ | shutdownUpstream _ =>
      exact timed.extend (fun _ _ h => by cases h) rfl rfl inStep (Nat.le_refl _)

theorem Relayed.wall_le {idle : Nat} {s next : Relay} {label : Label}
    (relayed : Relayed idle s label next) (steady : ∀ set, label ≠ .adjust set) :
    s.clocks.wall ≤ next.clocks.wall := by
  cases relayed with
  | tick => exact Nat.le_succ _
  | adjust set => exact absurd rfl (steady set)
  | pump _ pumped => exact Nat.le_of_eq pumped.wall_eq.symm
  | shutdownClient _ | shutdownUpstream _ => exact Nat.le_refl _

/-- Every interleaving under a steady clock keeps the invariant. -/
theorem run_timed {idle now wall : Nat} {fromUpstream fromClient : Bytes} {labels : List Label}
    {s : Relay}
    (runs : run (relayStep idle) (.start now wall fromUpstream fromClient) labels = some s)
    (steady : ∀ set, Label.adjust set ∉ labels) (fits : s.clocks.wall + idle < u64Size) :
    Timed idle now wall
      (history (relayStep idle) (.start now wall fromUpstream fromClient) labels) s := by
  refine run_induction_of_forall
    (fun past s => s.clocks.wall + idle < u64Size → Timed idle now wall past s)
    (fun _ label => ∀ set, label ≠ .adjust set) ?_ ?_ ?_ runs fits
  · intro fits
    have small : wall < u64Size := Nat.lt_of_le_of_lt (Nat.le_add_right wall idle) fits
    refine ⟨Nat.add_comm _ _, Nat.mod_eq_of_lt small, Nat.mod_le _ _, ?_, ?_⟩
    · exact fun entry member => absurd member List.not_mem_nil
    · intro side deadline fireAt waiting
      cases side <;> cases waiting
  · intro past state label next before steadyLabel taken fits
    have relayed := relayed_of_relayStep taken
    have monotone := relayed.wall_le steadyLabel
    exact (before (by omega)).step steadyLabel fits relayed
  · intro entry member set same
    exact steady set (same ▸ label_mem_of_mem_history member)

/-! ## The three properties -/

theorem fire_cases {idle : Nat} {s next : Relay} {side : Side}
    (fires : relayStep idle s (.pump side .fire) = some next) :
    ∃ deadline fireAt, (s.pumps side).phase = .reading deadline fireAt ∧
      fireAt ≤ s.clocks.now ∧
      ((deadline < s.clocks.deadline idle ∧ (next.pumps side).phase = arm idle s.clocks) ∨
        (s.clocks.deadline idle ≤ deadline ∧ (next.pumps side).phase = .done .timedOut)) := by
  cases relayed_of_relayStep fires with
  | @pump _ _ p clocks _ pumped =>
      change ∃ deadline fireAt, _ ∧ _ ∧
        ((_ ∧ (Function.update s.pumps side p side).phase = _) ∨
          (_ ∧ (Function.update s.pumps side p side).phase = _))
      rw [Function.update_self]
      cases pumped with
      | rearm waiting fired later => exact ⟨_, _, waiting, fired, .inl ⟨later, rfl⟩⟩
      | timeOut waiting fired notLater => exact ⟨_, _, waiting, fired, .inr ⟨notLater, rfl⟩⟩

/-- Under a clock that goes in step with the timers, in every interleaving: a
waiting pump's deadline lies within the window after the latest read; when a
pump times out no read of either was later than a window ago; and after a
firing a pump returns or waits for a later deadline, which it does only when
the other pump has read since the old deadline was computed. -/
theorem relay_idle_clock {idle now wall : Nat} {fromUpstream fromClient : Bytes}
    {labels : List Label} {s : Relay}
    (runs : run (relayStep idle) (.start now wall fromUpstream fromClient) labels = some s)
    (steady : ∀ set, Label.adjust set ∉ labels) (fits : s.clocks.wall + idle < u64Size) :
    let past := history (relayStep idle) (.start now wall fromUpstream fromClient) labels
    (∀ side next, relayStep idle s (.pump side .fire) = some next →
        (next.pumps side).phase = .done .timedOut →
        ∀ entry ∈ past, IsRead entry.2 → entry.1.clocks.wall + idle ≤ s.clocks.wall) ∧
      (∀ side deadline fireAt, (s.pumps side).phase = .reading deadline fireAt →
        deadline ≤ lastActivity wall past + idle) ∧
      ∀ side next, relayStep idle s (.pump side .fire) = some next →
        (next.pumps side).phase = .done .timedOut ∨
        ∃ deadline fireAt deadline' fireAt', (s.pumps side).phase = .reading deadline fireAt ∧
          (next.pumps side).phase = .reading deadline' fireAt' ∧ deadline < deadline' ∧
          ∃ before arming after event, past = before ++ arming :: after ∧
            arming.2 = .pump side event ∧ deadline = arming.1.clocks.shared + idle ∧
            (∀ entry ∈ after, ∀ event', entry.2 ≠ .pump side event') ∧
            ∃ entry ∈ after, ∃ count, entry.2 = .pump side.other (.read count) := by
  have timed := run_timed runs steady fits
  have inPast := timed.inPast
  have inStep := timed.inStep
  have current : s.clocks.deadline idle = s.clocks.shared + idle := deadline_eq (by omega)
  refine ⟨?_, ?_, ?_⟩
  · intro side next fires returned entry member isRead
    obtain ⟨deadline, fireAt, waiting, fired, ⟨-, rearmed⟩ | ⟨notLater, -⟩⟩ := fire_cases fires
    · rw [rearmed] at returned
      cases returned
    · have notEarly := (timed.armed side deadline fireAt waiting).notEarly
      have read := timed.reads entry member isRead
      omega
  · intro side deadline fireAt waiting
    rw [← timed.shared]
    exact (timed.armed side deadline fireAt waiting).inWindow
  · intro side next fires
    obtain ⟨deadline, fireAt, waiting, fired, ⟨later, rearmed⟩ | ⟨-, returned⟩⟩ := fire_cases fires
    · obtain ⟨before, arming, after, event, split, isOwn, computed, others, since⟩ :=
        (timed.armed side deadline fireAt waiting).computed
      refine .inr ⟨deadline, fireAt, _, _, waiting, rearmed, later, before, arming, after, event,
        split, isOwn, computed, others, since.resolve_left fun same => ?_⟩
      omega
    · exact .inl returned

/-- The pump from the client reads one byte a millisecond after the start. -/
def readAfterTick : List Label :=
  [.pump .down .start, .pump .up .start, .tick, .pump .up (.read 1), .pump .up (.write 1)]

/-- With a window of one millisecond both deadlines are then at most two. -/
theorem relay_idle_clock_readAfterTick :
    ∃ s, run (relayStep 1) (.start 0 0 [] [71]) readAfterTick = some s ∧
      ∀ side deadline fireAt, (s.pumps side).phase = .reading deadline fireAt → deadline ≤ 2 := by
  obtain ⟨s, runs⟩ := Option.isSome_iff_exists.mp
    (by decide : (run (relayStep 1) (.start 0 0 [] [71]) readAfterTick).isSome = true)
  have wall := congrArg (Option.map fun s => s.clocks.wall) runs
  have one : 1 = s.clocks.wall := Option.some.inj wall
  refine ⟨s, runs, (relay_idle_clock runs (by simp [readAfterTick]) ?_).2.1⟩
  rw [← one]
  decide

end TailcatSocks.Rust
