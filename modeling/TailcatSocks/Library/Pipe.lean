import TailcatSocks.Library.Runs
import Mathlib.Data.Fintype.Basic
import Mathlib.Logic.Equiv.Basic
import Mathlib.Logic.Function.Basic

/-!
# Pipes with several lanes

What a relay is for, without sockets: on every lane elements are taken from a
source, held for a while, and given on in the order in which they were taken.
A lane takes only when it holds nothing.  The buffer is either one for each
lane, and then the lanes do not know of each other, or one for all of them, and
then a lane also waits for the others.
-/

namespace TailcatSocks.Library

structure Lane (α : Type) where
  /-- Still to be taken. -/
  source : List α
  /-- Taken and not yet given on. -/
  held : List α
  sent : List α
  deriving DecidableEq, Repr

inductive Motion where
  | take (count : Nat)
  | give (count : Nat)
  deriving DecidableEq, Repr

section Lanes

variable {α : Type}

def laneStep (bound : Nat) (lane : Lane α) : Motion → Option (Lane α)
  | .take count =>
      if lane.held.isEmpty ∧ 0 < count ∧ count ≤ bound ∧ count ≤ lane.source.length then
        some ⟨lane.source.drop count, lane.source.take count, lane.sent⟩
      else none
  | .give count =>
      if 0 < count ∧ count ≤ lane.held.length then
        some ⟨lane.source, lane.held.drop count, lane.sent ++ lane.held.take count⟩
      else none

/-- A lane from which nothing has been taken. -/
def Lane.start (stream : List α) : Lane α := ⟨stream, [], []⟩

/-- All the elements of a lane, in their order. -/
def Lane.stream (lane : Lane α) : List α := lane.sent ++ lane.held ++ lane.source

/-- What a lane can do. -/
inductive Lane.Moved (bound : Nat) (lane : Lane α) : Motion → Lane α → Prop where
  | take {count : Nat} :
      lane.held = [] → 0 < count → count ≤ bound → count ≤ lane.source.length →
      Lane.Moved bound lane (.take count)
        ⟨lane.source.drop count, lane.source.take count, lane.sent⟩
  | give {count : Nat} :
      0 < count → count ≤ lane.held.length →
      Lane.Moved bound lane (.give count)
        ⟨lane.source, lane.held.drop count, lane.sent ++ lane.held.take count⟩

variable {bound : Nat} {lane next : Lane α} {motion : Motion}

theorem laneStep_eq_some :
    laneStep bound lane motion = some next ↔ Lane.Moved bound lane motion next := by
  cases motion with
  | take count =>
      simp only [laneStep, List.isEmpty_iff, Option.ite_none_right_eq_some, Option.some.injEq]
      constructor
      · rintro ⟨⟨empty, positive, small, enough⟩, rfl⟩
        exact .take empty positive small enough
      · rintro (⟨empty, positive, small, enough⟩ | _)
        exact ⟨⟨empty, positive, small, enough⟩, rfl⟩
  | give count =>
      simp only [laneStep, Option.ite_none_right_eq_some, Option.some.injEq]
      constructor
      · rintro ⟨⟨positive, enough⟩, rfl⟩
        exact .give positive enough
      · rintro (_ | ⟨positive, enough⟩)
        exact ⟨⟨positive, enough⟩, rfl⟩

theorem Lane.Moved.stream_eq (moved : Lane.Moved bound lane motion next) :
    next.stream = lane.stream := by
  cases moved with
  | take empty _ _ _ =>
      rw [Lane.stream, Lane.stream, empty, List.append_nil, List.append_assoc,
        List.take_append_drop]
  | @give count _ _ =>
      rw [Lane.stream, Lane.stream, List.append_assoc lane.sent (lane.held.take count),
        List.take_append_drop]

theorem Lane.Moved.held_le (moved : Lane.Moved bound lane motion next)
    (few : lane.held.length ≤ bound) : next.held.length ≤ bound := by
  cases moved with
  | take _ _ small _ => exact (List.length_take_le _ _).trans small
  | give _ _ => exact (List.length_drop ▸ Nat.sub_le _ _).trans few

/-- A lane with nothing left has given on its whole stream. -/
theorem Lane.sent_eq_stream (drained : lane.held = []) (finished : lane.source = []) :
    lane.sent = lane.stream := by
  rw [Lane.stream, drained, finished, List.append_nil, List.append_nil]

/-- Any part of what is held can be given on. -/
theorem exists_give (bound count : Nat) (lane : Lane α) :
    ∃ motions, run (laneStep bound) lane motions =
      some ⟨lane.source, lane.held.drop count, lane.sent ++ lane.held.take count⟩ := by
  by_cases nothing : lane.held.take count = []
  · refine ⟨[], ?_⟩
    have whole := List.take_append_drop count lane.held
    rw [nothing, List.nil_append] at whole
    rw [run_nil, nothing, List.append_nil, whole]
  · have positive : 0 < (lane.held.take count).length := List.length_pos_iff.mpr nothing
    rw [List.length_take] at positive
    have gives := laneStep_eq_some.mpr
      (Lane.Moved.give positive (Nat.min_le_right ..) : Lane.Moved bound lane _ _)
    refine ⟨_, (run_cons_of_step [] gives).trans ?_⟩
    rw [run_nil, ← List.take_eq_take_min, ← List.drop_eq_drop_min]

theorem run_takeGive (roomy : 0 < bound) (source sent : List α) :
    run (laneStep bound) ⟨source, [], sent⟩ (source.flatMap fun _ => [.take 1, .give 1]) =
      some ⟨[], [], sent ++ source⟩ := by
  induction source generalizing sent with
  | nil => rw [List.append_nil]; rfl
  | cons a source ih =>
      have takes : laneStep bound ⟨a :: source, [], sent⟩ (.take 1) = some ⟨source, [a], sent⟩ :=
        if_pos ⟨rfl, Nat.one_pos, roomy, Nat.succ_le_succ (Nat.zero_le _)⟩
      have gives : laneStep bound ⟨source, [a], sent⟩ (.give 1) = some ⟨source, [], sent ++ [a]⟩ :=
        rfl
      rw [List.flatMap_cons, List.cons_append, List.cons_append, List.nil_append,
        run_cons_of_step _ takes, run_cons_of_step _ gives, ih, List.append_assoc,
        List.singleton_append]

/-- From everywhere a lane can give on all that it has. -/
theorem exists_drain (roomy : 0 < bound) (lane : Lane α) :
    ∃ motions, run (laneStep bound) lane motions = some ⟨[], [], lane.stream⟩ := by
  obtain ⟨source, held, sent⟩ := lane
  have rest := run_takeGive roomy source (sent ++ held)
  by_cases empty : held = []
  · subst empty
    rw [List.append_nil] at rest
    refine ⟨_, rest.trans ?_⟩
    rw [Lane.stream, List.append_nil]
  · have gives : laneStep bound ⟨source, held, sent⟩ (.give held.length) =
        some ⟨source, [], sent ++ held⟩ := by
      refine (if_pos ⟨List.length_pos_iff.mpr empty, Nat.le_refl _⟩).trans ?_
      rw [List.drop_length, List.take_length]
    exact ⟨_, (run_cons_of_step _ gives).trans rest⟩

end Lanes

/-! ## All the lanes -/

section Pipes

variable {ι α : Type} [DecidableEq ι] [Fintype ι]

/-- `shared`: there is one buffer for all lanes. -/
def pipeStep (shared : Bool) (bound : Nat) (pipe : ι → Lane α) (label : ι × Motion) :
    Option (ι → Lane α) :=
  match label with
  | (i, .take count) =>
      if shared = true → ∀ j, (pipe j).held.isEmpty then
        (laneStep bound (pipe i) (.take count)).map (Function.update pipe i)
      else none
  | (i, .give count) => (laneStep bound (pipe i) (.give count)).map (Function.update pipe i)

/-- A step of a pipe is a step of one lane. -/
theorem moved_of_pipeStep {shared : Bool} {bound : Nat} {pipe next : ι → Lane α}
    {label : ι × Motion} (taken : pipeStep shared bound pipe label = some next) :
    ∃ lane, Lane.Moved bound (pipe label.1) label.2 lane ∧
      next = Function.update pipe label.1 lane := by
  obtain ⟨i, motion⟩ := label
  have moves : (laneStep bound (pipe i) motion).map (Function.update pipe i) = some next := by
    cases motion with
    | take count => exact (Option.ite_none_right_eq_some.mp taken).2
    | give count => exact taken
  obtain ⟨lane, goes, rfl⟩ := Option.map_eq_some_iff.mp moves
  exact ⟨lane, laneStep_eq_some.mp goes, rfl⟩

/-- With one buffer nothing is taken while anything is held. -/
theorem held_of_take {bound count : Nat} {pipe next : ι → Lane α} {i : ι}
    (taken : pipeStep true bound pipe (i, .take count) = some next) (j : ι) :
    (pipe j).held = [] :=
  List.isEmpty_iff.mp ((Option.ite_none_right_eq_some.mp taken).1 rfl j)

theorem pipeStep_give (shared : Bool) (bound : Nat) {count : Nat} {pipe : ι → Lane α} {i : ι}
    (positive : 0 < count) (enough : count ≤ (pipe i).held.length) :
    pipeStep shared bound pipe (i, .give count) =
      some (Function.update pipe i
        ⟨(pipe i).source, (pipe i).held.drop count, (pipe i).sent ++ (pipe i).held.take count⟩) :=
  Option.map_eq_some_iff.mpr ⟨_, laneStep_eq_some.mpr (.give positive enough), rfl⟩

theorem pipeStep_take (shared : Bool) {bound count : Nat} {pipe : ι → Lane α} {i : ι}
    (free : (pipe i).held = []) (others : shared = true → ∀ j, (pipe j).held = [])
    (positive : 0 < count) (small : count ≤ bound) (enough : count ≤ (pipe i).source.length) :
    pipeStep shared bound pipe (i, .take count) =
      some (Function.update pipe i
        ⟨(pipe i).source.drop count, (pipe i).source.take count, (pipe i).sent⟩) := by
  have empty : shared = true → ∀ j, (pipe j).held.isEmpty = true := fun isShared j =>
    List.isEmpty_iff.mpr (others isShared j)
  rw [pipeStep, if_pos empty]
  exact Option.map_eq_some_iff.mpr
    ⟨_, laneStep_eq_some.mpr (.take free positive small enough), rfl⟩

variable {shared : Bool} {bound : Nat} {pipe last : ι → Lane α} {motions : List (ι × Motion)}

/-- Nothing is lost, doubled or put in another order, on any lane. -/
theorem run_stream_eq (runs : run (pipeStep shared bound) pipe motions = some last) (i : ι) :
    (last i).stream = (pipe i).stream := by
  refine run_invariant (fun s : ι → Lane α => ∀ i, (s i).stream = (pipe i).stream)
    (fun _ => rfl) ?_ runs i
  intro s label next same taken i
  obtain ⟨lane, moved, rfl⟩ := moved_of_pipeStep taken
  by_cases here : i = label.1
  · subst here
    rw [Function.update_self, moved.stream_eq, same]
  · rw [Function.update_of_ne here, same]

/-- A larger buffer allows what a smaller one does. -/
theorem run_laneStep_mono {bound bound' : Nat} {lane lane' : Lane α} {motions : List Motion}
    (larger : bound ≤ bound') (runs : run (laneStep bound) lane motions = some lane') :
    run (laneStep bound') lane motions = some lane' := by
  induction motions generalizing lane with
  | nil => exact runs
  | cons motion motions ih =>
      obtain ⟨next, taken, rest⟩ := run_cons_eq_some runs
      have moved : Lane.Moved bound' lane motion next := by
        cases laneStep_eq_some.mp taken with
        | take empty positive small enough => exact .take empty positive (small.trans larger) enough
        | give positive enough => exact .give positive enough
      rw [run_cons_of_step _ (laneStep_eq_some.mpr moved), ih rest]

/-- A lane holds no more than one buffer. -/
theorem run_held_le (few : ∀ i, (pipe i).held.length ≤ bound)
    (runs : run (pipeStep shared bound) pipe motions = some last) (i : ι) :
    (last i).held.length ≤ bound := by
  refine run_invariant (fun s : ι → Lane α => ∀ i, (s i).held.length ≤ bound) few ?_ runs i
  intro s label next few taken
  obtain ⟨lane, moved, rfl⟩ := moved_of_pipeStep taken
  exact (Function.forall_update_iff s fun _ lane => lane.held.length ≤ bound).mpr
    ⟨moved.held_le (few label.1), fun i _ => few i⟩

/-- With one buffer, at most one lane holds anything. -/
theorem run_shared_held (empty : ∀ i, (pipe i).held = [])
    (runs : run (pipeStep true bound) pipe motions = some last) {i j : ι} (different : i ≠ j) :
    (last i).held = [] ∨ (last j).held = [] := by
  refine run_invariant (fun s : ι → Lane α => ∀ i j, i ≠ j → (s i).held = [] ∨ (s j).held = [])
    (fun i _ _ => .inl (empty i)) ?_ runs i j different
  rintro s ⟨k, motion⟩ next alone taken i j different
  have kept (l : ι) (other : l ≠ k) : (next l).held = (s l).held := by
    obtain ⟨lane, -, rfl⟩ := moved_of_pipeStep taken
    rw [Function.update_of_ne other]
  cases motion with
  | take count =>
      have free := held_of_take taken
      by_cases first : i = k
      · exact .inr (by rw [kept j (fun second => different (first.trans second.symm)), free])
      · exact .inl (by rw [kept i first, free])
  | give count =>
      obtain ⟨lane, moved, rfl⟩ := moved_of_pipeStep taken
      -- who gives held something, so that no other lane does
      have holds : (s k).held ≠ [] := by
        rintro nothing
        cases moved with
        | give positive enough =>
            rw [nothing] at enough
            exact absurd enough (Nat.not_le.mpr positive)
      by_cases first : i = k
      · subst first
        exact .inr (by rw [kept j different.symm, (alone i j different).resolve_left holds])
      · by_cases second : j = k
        · subst second
          exact .inl (by rw [kept i first, (alone i j first).resolve_right holds])
        · rw [kept i first, kept j second]
          exact alone i j different

/-- The names of the lanes do not matter. -/
theorem run_reindex {κ : Type} [DecidableEq κ] [Fintype κ] (e : ι ≃ κ)
    (runs : run (pipeStep shared bound) pipe motions = some last) :
    run (pipeStep shared bound) (pipe ∘ e.symm)
      (motions.map fun label => (e label.1, label.2)) = some (last ∘ e.symm) := by
  induction motions generalizing pipe with
  | nil =>
      rw [run_nil, Option.some.injEq] at runs
      rw [runs, List.map_nil, run_nil]
  | cons label motions ih =>
      obtain ⟨next, taken, rest⟩ := run_cons_eq_some runs
      obtain ⟨i, motion⟩ := label
      obtain ⟨lane, moved, rfl⟩ := moved_of_pipeStep taken
      have renamed : Function.update pipe i lane ∘ e.symm =
          Function.update (pipe ∘ e.symm) (e i) lane :=
        Function.update_comp_equiv pipe e.symm i lane
      have steps : pipeStep shared bound (pipe ∘ e.symm) (e i, motion) =
          some (Function.update pipe i lane ∘ e.symm) := by
        have here : (pipe ∘ e.symm) (e i) = pipe i := congrArg pipe (e.symm_apply_apply i)
        rw [renamed]
        cases motion with
        | take count =>
            have free : shared = true → ∀ j, ((pipe ∘ e.symm) j).held.isEmpty = true :=
              fun isShared j => (Option.ite_none_right_eq_some.mp taken).1 isShared (e.symm j)
            rw [pipeStep, if_pos free, here, laneStep_eq_some.mpr moved, Option.map_some]
        | give count => rw [pipeStep, here, laneStep_eq_some.mpr moved, Option.map_some]
      rw [List.map_cons, run_cons_of_step _ steps, ih rest]

/-! ## Lanes that do not know of each other -/

/-- What a list of motions asks of one lane. -/
def onLane (i : ι) (motions : List (ι × Motion)) : List Motion :=
  motions.filterMap fun label => if label.1 = i then some label.2 else none

omit [Fintype ι] in
theorem onLane_cons_self (i : ι) (motion : Motion) (motions : List (ι × Motion)) :
    onLane i ((i, motion) :: motions) = motion :: onLane i motions :=
  List.filterMap_cons_some (if_pos rfl)

omit [Fintype ι] in
theorem onLane_cons_of_ne {i j : ι} (other : j ≠ i) (motion : Motion)
    (motions : List (ι × Motion)) : onLane i ((j, motion) :: motions) = onLane i motions :=
  List.filterMap_cons_none (if_neg other)

theorem pipeStep_own (bound : Nat) (pipe : ι → Lane α) (i : ι) (motion : Motion) :
    pipeStep false bound pipe (i, motion) =
      (laneStep bound (pipe i) motion).map (Function.update pipe i) := by
  cases motion with
  | take count => rw [pipeStep, if_pos fun isShared => absurd isShared Bool.false_ne_true]
  | give count => rfl

/-- With a buffer each, the lanes run by themselves: whatever is asked of the
others and in between, a lane gets where what is asked of it alone leads. -/
theorem run_own_iff :
    run (pipeStep false bound) pipe motions = some last ↔
      ∀ i, run (laneStep bound) (pipe i) (onLane i motions) = some (last i) := by
  induction motions generalizing pipe with
  | nil =>
      simp only [run_nil, onLane, List.filterMap_nil, Option.some.injEq]
      exact funext_iff
  | cons label motions ih =>
      obtain ⟨i, motion⟩ := label
      cases moves : laneStep bound (pipe i) motion with
      | none =>
          have stuck : pipeStep false bound pipe (i, motion) = none := by
            rw [pipeStep_own, moves, Option.map_none]
          rw [run, stuck]
          refine iff_of_false (Option.some_ne_none _).symm fun all => ?_
          have here := all i
          rw [onLane_cons_self, run, moves] at here
          cases here
      | some lane =>
          have taken :
              pipeStep false bound pipe (i, motion) = some (Function.update pipe i lane) := by
            rw [pipeStep_own, moves, Option.map_some]
          rw [run_cons_of_step _ taken, ih]
          refine forall_congr' fun j => ?_
          by_cases here : j = i
          · subst here
            rw [Function.update_self, onLane_cons_self, run_cons_of_step _ moves]
          · rw [Function.update_of_ne here, onLane_cons_of_ne (Ne.symm here)]

/-- A run of one lane, with the others left as they are. -/
theorem run_own_lane {i : ι} {lane : Lane α} {motions : List Motion}
    (runs : run (laneStep bound) (pipe i) motions = some lane) :
    run (pipeStep false bound) pipe (motions.map fun motion => (i, motion)) =
      some (Function.update pipe i lane) := by
  induction motions generalizing pipe with
  | nil =>
      rw [run_nil, Option.some.injEq] at runs
      rw [List.map_nil, run_nil, ← runs, Function.update_eq_self]
  | cons motion motions ih =>
      obtain ⟨next, taken, rest⟩ := run_cons_eq_some runs
      have own : pipeStep false bound pipe (i, motion) = some (Function.update pipe i next) := by
        rw [pipeStep_own, taken, Option.map_some]
      rw [List.map_cons, run_cons_of_step _ own, ih, Function.update_idem]
      rwa [Function.update_self]

/-- What can be done with one buffer can be done with one for each lane. -/
theorem run_own_of_shared (runs : run (pipeStep true bound) pipe motions = some last) :
    run (pipeStep false bound) pipe motions = some last := by
  induction motions generalizing pipe with
  | nil => exact runs
  | cons label motions ih =>
      obtain ⟨next, taken, rest⟩ := run_cons_eq_some runs
      obtain ⟨i, motion⟩ := label
      have own : pipeStep false bound pipe (i, motion) = some next := by
        rw [pipeStep_own]
        cases motion with
        | take count => exact (Option.ite_none_right_eq_some.mp taken).2
        | give count => exact taken
      rw [run_cons_of_step _ own, ih rest]

/-- When at most one lane has anything at all, one buffer is as good as many. -/
theorem run_shared_of_own {i : ι} (others : ∀ j, j ≠ i → (pipe j).stream = [])
    (runs : run (pipeStep false bound) pipe motions = some last) :
    run (pipeStep true bound) pipe motions = some last := by
  induction motions generalizing pipe with
  | nil => exact runs
  | cons label motions ih =>
      obtain ⟨next, taken, rest⟩ := run_cons_eq_some runs
      have others' : ∀ j, j ≠ i → (next j).stream = [] := fun j other =>
        (run_stream_eq (run_cons_of_step [] taken) j).trans (others j other)
      obtain ⟨k, motion⟩ := label
      have steps : pipeStep true bound pipe (k, motion) = some next := by
        cases motion with
        | give count => exact taken
        | take count =>
            obtain ⟨lane, moved, -⟩ := moved_of_pipeStep taken
            have nothing (j : ι) (other : j ≠ i) :
                (pipe j).held = [] ∧ (pipe j).source = [] := by
              have whole := others j other
              rw [Lane.stream, List.append_eq_nil_iff, List.append_eq_nil_iff] at whole
              exact ⟨whole.1.2, whole.2⟩
            cases moved with
            | take empty positive small enough =>
                -- only the one lane has something to take
                obtain rfl : k = i := by
                  by_contra other
                  rw [(nothing k other).2] at enough
                  exact absurd positive (Nat.not_lt.mpr enough)
                have free (j : ι) : (pipe j).held = [] := by
                  by_cases here : j = k
                  · exact here ▸ empty
                  · exact (nothing j here).1
                rw [← taken, pipeStep_take true empty (fun _ => free) positive small enough,
                  pipeStep_take false empty (fun isShared => absurd isShared Bool.false_ne_true)
                    positive small enough]
      rw [run_cons_of_step _ steps, ih others' rest]

end Pipes

end TailcatSocks.Library
