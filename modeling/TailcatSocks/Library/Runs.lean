import Mathlib.Data.List.Induction

/-!
# Runs of a deterministic labelled machine

A machine is a partial step function: the label carries every choice that the
environment or the scheduler makes, so that a run is determined by its first
state and its list of labels.  A property of every interleaving is a property
of `run` for every list of labels.

`history` pairs each label of a run with the state in which it was taken.
Invariants may speak about the history, so that "no read happened later than"
and "this call happened once" need no ghost fields in the state.
-/

namespace TailcatSocks.Library

variable {State Label : Type}

/-- The state after a list of labels, or `none` when one of them is not enabled. -/
def run (step : State → Label → Option State) : State → List Label → Option State
  | state, [] => some state
  | state, label :: labels =>
      match step state label with
      | none => none
      | some next => run step next labels

/-- The labels of a run, each with the state in which it was taken. -/
def history (step : State → Label → Option State) : State → List Label → List (State × Label)
  | _, [] => []
  | state, label :: labels =>
      (state, label) ::
        match step state label with
        | none => []
        | some next => history step next labels

variable {step : State → Label → Option State}

@[simp]
theorem run_nil (state : State) : run step state [] = some state := rfl

@[simp]
theorem history_nil (state : State) : history step state [] = [] := rfl

theorem run_cons_of_step {state next : State} {label : Label} (labels : List Label)
    (taken : step state label = some next) :
    run step state (label :: labels) = run step next labels := by
  simp only [run, taken]

theorem history_cons_of_step {state next : State} {label : Label} (labels : List Label)
    (taken : step state label = some next) :
    history step state (label :: labels) = (state, label) :: history step next labels := by
  simp only [history, taken]

/-- A nonempty run takes its first label and goes on from there. -/
theorem run_cons_eq_some {state last : State} {label : Label} {labels : List Label}
    (runs : run step state (label :: labels) = some last) :
    ∃ next, step state label = some next ∧ run step next labels = some last := by
  cases taken : step state label with
  | none => simp only [run, taken, reduceCtorEq] at runs
  | some next => exact ⟨next, rfl, by rwa [run_cons_of_step labels taken] at runs⟩

theorem run_append {state middle : State} {first second : List Label}
    (runs : run step state first = some middle) :
    run step state (first ++ second) = run step middle second := by
  induction first generalizing state with
  | nil =>
      rw [run_nil, Option.some.injEq] at runs
      rw [runs, List.nil_append]
  | cons label labels ih =>
      obtain ⟨next, taken, rest⟩ := run_cons_eq_some runs
      rw [List.cons_append, run_cons_of_step _ taken, ih rest]

theorem history_append {state middle : State} {first second : List Label}
    (runs : run step state first = some middle) :
    history step state (first ++ second) =
      history step state first ++ history step middle second := by
  induction first generalizing state with
  | nil =>
      rw [run_nil, Option.some.injEq] at runs
      rw [runs, List.nil_append, history_nil, List.nil_append]
  | cons label labels ih =>
      obtain ⟨next, taken, rest⟩ := run_cons_eq_some runs
      rw [List.cons_append, history_cons_of_step _ taken, history_cons_of_step _ taken, ih rest,
        List.cons_append]

/-- Every run splits at every point of its label list. -/
theorem run_append_eq_some {state last : State} {first second : List Label}
    (runs : run step state (first ++ second) = some last) :
    ∃ middle, run step state first = some middle ∧ run step middle second = some last := by
  induction first generalizing state with
  | nil => exact ⟨state, rfl, runs⟩
  | cons label labels ih =>
      obtain ⟨next, taken, rest⟩ := run_cons_eq_some runs
      obtain ⟨middle, before, after⟩ := ih rest
      exact ⟨middle, by rw [run_cons_of_step labels taken, before], after⟩

/-- A run that ends in a label is a run followed by one step. -/
theorem run_concat_eq_some {state last : State} {labels : List Label} {label : Label}
    (runs : run step state (labels ++ [label]) = some last) :
    ∃ middle, run step state labels = some middle ∧ step middle label = some last := by
  obtain ⟨middle, before, after⟩ := run_append_eq_some runs
  obtain ⟨next, taken, rest⟩ := run_cons_eq_some after
  rw [run_nil, Option.some.injEq] at rest
  exact ⟨middle, before, rest ▸ taken⟩

theorem history_concat {state middle : State} {labels : List Label} {label : Label}
    (runs : run step state labels = some middle) :
    history step state (labels ++ [label]) = history step state labels ++ [(middle, label)] := by
  rw [history_append runs]
  cases taken : step middle label <;> simp only [history, taken]

/-- Every entry of a history is a step of the run, at a state the run passes. -/
theorem mem_history {state last : State} {labels : List Label} {entry : State × Label}
    (runs : run step state labels = some last) (member : entry ∈ history step state labels) :
    ∃ first second next, labels = first ++ entry.2 :: second ∧
      run step state first = some entry.1 ∧ step entry.1 entry.2 = some next ∧
      run step next second = some last := by
  induction labels generalizing state with
  | nil => simp at member
  | cons label labels ih =>
      obtain ⟨next, taken, rest⟩ := run_cons_eq_some runs
      rw [history_cons_of_step labels taken, List.mem_cons] at member
      rcases member with rfl | member
      · exact ⟨[], labels, next, rfl, rfl, taken, rest⟩
      · obtain ⟨first, second, after, split, before, entered, tail⟩ := ih rest member
        refine ⟨label :: first, second, after, by rw [split, List.cons_append], ?_, entered, tail⟩
        rw [run_cons_of_step first taken, before]

theorem label_mem_of_mem_history {state : State} {labels : List Label} {entry : State × Label}
    (member : entry ∈ history step state labels) : entry.2 ∈ labels := by
  induction labels generalizing state with
  | nil => simp at member
  | cons label labels ih =>
      rw [history, List.mem_cons] at member
      rcases member with rfl | member
      · exact List.mem_cons_self
      · cases taken : step state label with
        | none => simp [taken] at member
        | some next =>
            rw [taken] at member
            exact List.mem_cons_of_mem _ (ih member)

/-- The step of an entry ends a run of its own. -/
theorem prefix_of_mem_history {state last : State} {labels : List Label} {entry : State × Label}
    (runs : run step state labels = some last) (member : entry ∈ history step state labels) :
    ∃ front next, front <+: labels ∧ step entry.1 entry.2 = some next ∧
      run step state front = some next := by
  obtain ⟨first, second, next, split, before, taken, -⟩ := mem_history runs member
  refine ⟨first ++ [entry.2], next, ⟨second, ?_⟩, taken, ?_⟩
  · rw [split, List.append_assoc, List.singleton_append]
  · rw [run_append before, run_cons_of_step _ taken, run_nil]

/-- What a run has passed is passed by every run that goes on from it. -/
theorem history_isPrefix {state middle : State} {front labels : List Label}
    (goesOn : front <+: labels) (reaches : run step state front = some middle) :
    history step state front <+: history step state labels := by
  obtain ⟨back, rfl⟩ := goesOn
  rw [history_append reaches]
  exact List.prefix_append _ _

theorem mem_history_mono {state middle : State} {front labels : List Label}
    {entry : State × Label} (goesOn : front <+: labels)
    (reaches : run step state front = some middle) (member : entry ∈ history step state front) :
    entry ∈ history step state labels :=
  (history_isPrefix goesOn reaches).subset member

/-- A property of history and state that holds at the start and is kept by
every step holds at the end of every run. -/
theorem run_induction (Invariant : List (State × Label) → State → Prop) {start last : State}
    {labels : List Label} (initially : Invariant [] start)
    (kept : ∀ past state label next, Invariant past state → step state label = some next →
      Invariant (past ++ [(state, label)]) next)
    (runs : run step start labels = some last) :
    Invariant (history step start labels) last := by
  induction labels using List.reverseRecOn generalizing last with
  | nil =>
      rw [run_nil, Option.some.injEq] at runs
      exact runs ▸ initially
  | append_singleton labels label ih =>
      obtain ⟨middle, before, taken⟩ := run_concat_eq_some runs
      rw [history_concat before]
      exact kept _ middle label last (ih before) taken

/-- The step of an entry, with what had been passed before it. -/
theorem step_of_prefix_history {state last : State} {labels : List Label}
    {past : List (State × Label)} {entry : State × Label}
    (runs : run step state labels = some last)
    (goesOn : past ++ [entry] <+: history step state labels) :
    ∃ front next, front ++ [entry.2] <+: labels ∧ history step state front = past ∧
      run step state front = some entry.1 ∧ step entry.1 entry.2 = some next := by
  induction labels generalizing state past with
  | nil =>
      rw [history_nil, List.prefix_nil] at goesOn
      exact absurd goesOn (List.append_ne_nil_of_right_ne_nil _ (List.cons_ne_nil _ _))
  | cons label labels ih =>
      obtain ⟨next, taken, rest⟩ := run_cons_eq_some runs
      rw [history_cons_of_step labels taken] at goesOn
      cases past with
      | nil =>
          obtain ⟨rfl, -⟩ := List.cons_prefix_cons.mp goesOn
          exact ⟨[], next, List.cons_prefix_cons.mpr ⟨rfl, List.nil_prefix⟩, rfl, rfl, taken⟩
      | cons first past =>
          rw [List.cons_append] at goesOn
          obtain ⟨rfl, inRest⟩ := List.cons_prefix_cons.mp goesOn
          obtain ⟨front, after, within, passed, before, entered⟩ := ih rest inRest
          refine ⟨label :: front, after, List.cons_prefix_cons.mpr ⟨rfl, within⟩, ?_, ?_, entered⟩
          · rw [history_cons_of_step front taken, passed]
          · rw [run_cons_of_step front taken, before]

/-- The rule for invariants that survive only the steps meeting a condition on
what was passed before. -/
theorem run_induction_of_past (Invariant : List (State × Label) → State → Prop)
    (Allowed : List (State × Label) → State → Label → Prop) {start last : State}
    {labels : List Label} (initially : Invariant [] start)
    (kept : ∀ past state label next, Invariant past state → Allowed past state label →
      step state label = some next → Invariant (past ++ [(state, label)]) next)
    (allowed : ∀ past entry, past ++ [entry] <+: history step start labels →
      Allowed past entry.1 entry.2)
    (runs : run step start labels = some last) :
    Invariant (history step start labels) last := by
  refine run_induction
    (fun past state => (∀ (front : List (State × Label)) (entry : State × Label),
      front ++ [entry] <+: past → Allowed front entry.1 entry.2) → Invariant past state)
    (fun _ => initially) ?_ runs allowed
  intro past state label next holds taken all
  have before : Invariant past state := holds fun front entry goesOn =>
    all front entry (goesOn.trans (List.prefix_append past [(state, label)]))
  exact kept past state label next before (all past (state, label) (List.prefix_refl _)) taken

/-- The rule for invariants that survive only the steps meeting a condition. -/
theorem run_induction_of_forall (Invariant : List (State × Label) → State → Prop)
    (Allowed : State → Label → Prop) {start last : State} {labels : List Label}
    (initially : Invariant [] start)
    (kept : ∀ past state label next, Invariant past state → Allowed state label →
      step state label = some next → Invariant (past ++ [(state, label)]) next)
    (allowed : ∀ entry ∈ history step start labels, Allowed entry.1 entry.2)
    (runs : run step start labels = some last) :
    Invariant (history step start labels) last := by
  refine run_induction_of_past Invariant (fun _ => Allowed) initially kept ?_ runs
  intro past entry goesOn
  exact allowed entry (goesOn.subset (List.mem_append_right _ (List.mem_singleton_self _)))

/-- The rule for invariants of the state alone. -/
theorem run_invariant (Invariant : State → Prop) {start last : State} {labels : List Label}
    (initially : Invariant start)
    (kept : ∀ state label next, Invariant state → step state label = some next → Invariant next)
    (runs : run step start labels = some last) : Invariant last :=
  run_induction (fun _ state => Invariant state) initially
    (fun _ state label next holds taken => kept state label next holds taken) runs

/-- The rule for invariants of the state alone that survive only such steps. -/
theorem run_invariant_of_forall (Invariant : State → Prop) (Allowed : State → Label → Prop)
    {start last : State} {labels : List Label} (initially : Invariant start)
    (kept : ∀ state label next, Invariant state → Allowed state label →
      step state label = some next → Invariant next)
    (allowed : ∀ entry ∈ history step start labels, Allowed entry.1 entry.2)
    (runs : run step start labels = some last) : Invariant last :=
  run_induction_of_forall (fun _ state => Invariant state) Allowed initially
    (fun _ state label next holds allowed taken => kept state label next holds allowed taken)
    allowed runs

/-- The same, for a condition on the labels of the run. -/
theorem run_invariant_of_labels (Invariant : State → Prop) (Allowed : Label → Prop)
    {start last : State} {labels : List Label} (initially : Invariant start)
    (kept : ∀ state label next, Invariant state → Allowed label →
      step state label = some next → Invariant next)
    (allowed : ∀ label ∈ labels, Allowed label)
    (runs : run step start labels = some last) : Invariant last :=
  run_invariant_of_forall Invariant (fun _ label => Allowed label) initially kept
    (fun entry member => allowed entry.2 (label_mem_of_mem_history member)) runs

/-- The rule for what a step of the run establishes, and every later step keeps. -/
theorem run_invariant_from (Invariant : State → Prop) {start last : State} {labels : List Label}
    {entry : State × Label} (member : entry ∈ history step start labels)
    (established : ∀ front next, run step start front = some entry.1 →
      step entry.1 entry.2 = some next → Invariant next)
    (kept : ∀ state label next, Invariant state → step state label = some next → Invariant next)
    (runs : run step start labels = some last) : Invariant last := by
  obtain ⟨front, _, next, -, before, taken, rest⟩ := mem_history runs member
  exact run_invariant Invariant (established front next before taken) kept rest

/-- Of a machine around another one, which leaves it alone but for the labels
that it passes on to it. -/
theorem run_filterMap {Outer Motion : Type} {outerStep : Outer → Motion → Option Outer}
    (image : Outer → State) (passed : Motion → Option Label)
    (steps : ∀ outer motion next label, passed motion = some label →
      outerStep outer motion = some next → step (image outer) label = some (image next))
    (stays : ∀ outer motion next, passed motion = none → outerStep outer motion = some next →
      image next = image outer)
    {outer last : Outer} {motions : List Motion}
    (runs : run outerStep outer motions = some last) :
    run step (image outer) (motions.filterMap passed) = some (image last) ∧
      history step (image outer) (motions.filterMap passed) =
        (history outerStep outer motions).filterMap fun entry =>
          (passed entry.2).map fun label => (image entry.1, label) := by
  induction motions generalizing outer with
  | nil =>
      cases runs
      exact ⟨rfl, rfl⟩
  | cons motion motions ih =>
      obtain ⟨next, taken, rest⟩ := run_cons_eq_some runs
      obtain ⟨reaches, passes⟩ := ih rest
      rw [history_cons_of_step motions taken]
      cases own : passed motion with
      | none =>
          rw [List.filterMap_cons_none own, ← stays outer motion next own taken, passes,
            List.filterMap_cons_none (by rw [own, Option.map_none])]
          exact ⟨reaches, rfl⟩
      | some label =>
          have moves := steps outer motion next label own taken
          rw [List.filterMap_cons_some own, run_cons_of_step _ moves,
            history_cons_of_step _ moves, passes,
            List.filterMap_cons_some (by rw [own, Option.map_some])]
          exact ⟨reaches, rfl⟩

/-- When every step of one machine is answered by a run of another that leads
to a related state, so is every run. -/
theorem run_simulates {Spec Motion : Type} {specStep : Spec → Motion → Option Spec}
    (Related : State → Spec → Prop)
    (answers : ∀ state spec label next, Related state spec → step state label = some next →
      ∃ motions spec', run specStep spec motions = some spec' ∧ Related next spec')
    {start last : State} {labels : List Label} {spec : Spec} (related : Related start spec)
    (runs : run step start labels = some last) :
    ∃ motions spec', run specStep spec motions = some spec' ∧ Related last spec' := by
  refine run_invariant
    (fun state => ∃ motions spec', run specStep spec motions = some spec' ∧ Related state spec')
    ⟨[], spec, rfl, related⟩ ?_ runs
  rintro state label next ⟨motions, middle, reaches, related⟩ taken
  obtain ⟨more, spec', goes, related'⟩ := answers state middle label next related taken
  exact ⟨motions ++ more, spec', by rw [run_append reaches, goes], related'⟩

/-- Labels that leave the related state alone can be left out of a run, when
every other one is answered by itself. -/
theorem run_filter (Related : State → State → Prop) (kept : Label → Bool)
    {start start' last : State} {labels : List Label}
    (skips : ∀ state state' label next, label ∈ labels → kept label = false →
      Related state state' → step state label = some next → Related next state')
    (answers : ∀ state state' label next, label ∈ labels → kept label = true →
      Related state state' → step state label = some next →
      ∃ next', step state' label = some next' ∧ Related next next')
    (related : Related start start') (runs : run step start labels = some last) :
    ∃ last', run step start' (labels.filter kept) = some last' ∧ Related last last' := by
  induction labels generalizing start start' with
  | nil =>
      rw [run_nil, Option.some.injEq] at runs
      exact ⟨start', rfl, runs ▸ related⟩
  | cons label labels ih =>
      obtain ⟨next, taken, rest⟩ := run_cons_eq_some runs
      have later (state' : State) (related' : Related next state') :
          ∃ last', run step state' (labels.filter kept) = some last' ∧ Related last last' :=
        ih (fun state state' l next member => skips state state' l next (.tail _ member))
          (fun state state' l next member => answers state state' l next (.tail _ member))
          related' rest
      cases keeps : kept label with
      | false =>
          rw [List.filter_cons_of_neg (by simp [keeps])]
          exact later start' (skips _ _ label next List.mem_cons_self keeps related taken)
      | true =>
          obtain ⟨next', taken', related'⟩ :=
            answers _ _ label next List.mem_cons_self keeps related taken
          rw [List.filter_cons_of_pos keeps, run_cons_of_step _ taken']
          exact later next' related'

end TailcatSocks.Library
