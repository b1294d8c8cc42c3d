import TailcatSocks.Library.Runs
import Mathlib.Data.List.Forall2

/-!
# Readers beside a publisher

A machine whose steps publish versions, one at a time, and readers that look at
it between its steps.  Whether a reader can see an older version than one before
it depends on the order in which the versions are published, and on nothing else.
-/

namespace TailcatSocks.Library

/-- The publisher, and what the readers have made of it, in the order in which they looked. -/
structure Readers (Pub Answer : Type) where
  publisher : Pub
  answered : List Answer

inductive ReadersLabel (Label Reader : Type) where
  | own (label : Label)
  | look (reader : Reader)
  deriving DecidableEq, Repr

section Readers

variable {Pub Answer Label Reader : Type}

def ReadersLabel.ownLabel : ReadersLabel Label Reader → Option Label
  | .own label => some label
  | .look _ => none

def ReadersLabel.looking : ReadersLabel Label Reader → Option Reader
  | .own _ => none
  | .look reader => some reader

def readersStep (step : Pub → Label → Option Pub) (answer : Pub → Reader → Answer)
    (s : Readers Pub Answer) : ReadersLabel Label Reader → Option (Readers Pub Answer)
  | .own label => (step s.publisher label).map fun publisher => { s with publisher }
  | .look reader => some { s with answered := s.answered ++ [answer s.publisher reader] }

/-- The steps of the publisher itself. -/
def ownLabels (labels : List (ReadersLabel Label Reader)) : List Label :=
  labels.filterMap ReadersLabel.ownLabel

/-- The readers, each with the publisher as it was when they looked. -/
def looks (past : List (Readers Pub Answer × ReadersLabel Label Reader)) : List (Pub × Reader) :=
  past.filterMap fun entry => entry.2.looking.map fun reader => (entry.1.publisher, reader)

variable {step : Pub → Label → Option Pub} {answer : Pub → Reader → Answer}
  {s last : Readers Pub Answer} {labels : List (ReadersLabel Label Reader)}

theorem looks_concat (past : List (Readers Pub Answer × ReadersLabel Label Reader))
    (entry : Readers Pub Answer × ReadersLabel Label Reader) :
    looks (past ++ [entry]) =
      looks past ++ (entry.2.looking.map fun reader => (entry.1.publisher, reader)).toList := by
  obtain ⟨state, label⟩ := entry
  rw [looks, List.filterMap_append, looks]
  cases label <;> rfl

/-- Whatever the readers do, the publisher runs by itself. -/
theorem run_own (runs : run (readersStep step answer) s labels = some last) :
    run step s.publisher (ownLabels labels) = some last.publisher := by
  refine (run_filterMap Readers.publisher ReadersLabel.ownLabel ?_ ?_ runs).1
  · intro state label next own owned taken
    cases label with
    | own label =>
        obtain ⟨publisher, steps, rfl⟩ := Option.map_eq_some_iff.mp taken
        obtain rfl : label = own := Option.some.inj owned
        exact steps
    | look reader => cases owned
  · intro state label next owned taken
    cases label with
    | own label => cases owned
    | look reader =>
        cases taken
        rfl

/-- Every answer is that to a look. -/
theorem answered_eq (runs : run (readersStep step answer) s labels = some last) :
    last.answered = s.answered ++
      (looks (history (readersStep step answer) s labels)).map fun look =>
        answer look.1 look.2 := by
  refine run_induction (fun past state => state.answered = s.answered ++
    (looks past).map fun look => answer look.1 look.2) ?_ ?_ runs
  · exact (List.append_nil _).symm
  · intro past state label next answered taken
    rw [looks_concat]
    cases label with
    | own label =>
        obtain ⟨publisher, -, rfl⟩ := Option.map_eq_some_iff.mp taken
        rw [ReadersLabel.looking, Option.map_none, Option.toList_none, List.append_nil]
        exact answered
    | look reader =>
        cases taken
        rw [answered, List.append_assoc, List.map_append]
        exact rfl

/-- What a reader has looked at is a state on the way of the publisher. -/
theorem mem_looks {look : Pub × Reader}
    (member : look ∈ looks (history (readersStep step answer) s labels))
    (runs : run (readersStep step answer) s labels = some last) :
    ∃ front rest, run step s.publisher front = some look.1 ∧
      run step look.1 rest = some last.publisher := by
  obtain ⟨⟨state, label⟩, inHistory, looked⟩ := List.mem_filterMap.mp member
  obtain ⟨reader, -, rfl⟩ := Option.map_eq_some_iff.mp looked
  obtain ⟨first, second, next, -, before, taken, after⟩ := mem_history runs inHistory
  exact ⟨_, _, run_own before, run_own ((run_cons_of_step second taken).trans after)⟩

/-! ## The order of the versions -/

/-- Of one version and a later one: what was published once stays published. -/
def NotNewer (version later : Option Nat) : Prop :=
  ∀ index, version = some index → ∃ index', later = some index' ∧ index ≤ index'

theorem NotNewer.refl (version : Option Nat) : NotNewer version version :=
  fun index here => ⟨index, here, Nat.le_refl index⟩

theorem NotNewer.trans {version later latest : Option Nat} (first : NotNewer version later)
    (second : NotNewer later latest) : NotNewer version latest := by
  intro index here
  obtain ⟨index', there, le⟩ := first index here
  obtain ⟨last, end_, le'⟩ := second index' there
  exact ⟨last, end_, Nat.le_trans le le'⟩

/-- Every step publishes one version more, or none. -/
def Publishes (step : Pub → Label → Option Pub) (versions : Pub → List Nat) : Prop :=
  ∀ s label next, step s label = some next →
    versions next = versions s ∨ ∃ version, versions next = versions s ++ [version]

/-- What the readers have seen: the latest version of each look. -/
def seen (versions : Pub → List Nat)
    (past : List (Readers Pub Answer × ReadersLabel Label Reader)) : List (Option Nat) :=
  (looks past).map fun look => (versions look.1).getLast?

variable {versions : Pub → List Nat}

theorem seen_concat (past : List (Readers Pub Answer × ReadersLabel Label Reader))
    (entry : Readers Pub Answer × ReadersLabel Label Reader) :
    seen versions (past ++ [entry]) = seen versions past ++
      (entry.2.looking.map fun _ => (versions entry.1.publisher).getLast?).toList := by
  obtain ⟨state, label⟩ := entry
  rw [seen, looks_concat, List.map_append, seen]
  cases label <;> rfl

/-- What holds of every look holds of every answer, with the version that was seen. -/
theorem forall₂_seen {start : Pub} {Holds : Option Nat → Answer → Prop}
    (runs : run (readersStep step answer) ⟨start, []⟩ labels = some last)
    (each : ∀ state reader front rest, run step start front = some state →
      run step state rest = some last.publisher →
      Holds (versions state).getLast? (answer state reader)) :
    List.Forall₂ Holds (seen versions (history (readersStep step answer) ⟨start, []⟩ labels))
      last.answered := by
  rw [answered_eq runs, List.nil_append, seen, List.forall₂_map_left_iff,
    List.forall₂_map_right_iff, List.forall₂_same]
  intro look member
  obtain ⟨front, rest, before, after⟩ := mem_looks member runs
  exact each look.1 look.2 front rest before after

theorem notNewer_of_publishes {state next : Pub} {label : Label}
    (publishes : Publishes step versions) (taken : step state label = some next)
    (ordered : (versions next).Pairwise (· ≤ ·)) :
    (versions state).Pairwise (· ≤ ·) ∧
      NotNewer (versions state).getLast? (versions next).getLast? := by
  rcases publishes state label next taken with same | ⟨version, more⟩
  · rw [same] at ordered ⊢
    exact ⟨ordered, .refl _⟩
  · rw [more] at ordered ⊢
    obtain ⟨before, -, le⟩ := List.pairwise_append.mp ordered
    refine ⟨before, fun index here => ⟨version, List.getLast?_concat, ?_⟩⟩
    exact le index (List.mem_of_getLast? here) version List.mem_cons_self

/-- Versions that are published in order are seen in order. -/
theorem seen_of_published (publishes : Publishes step versions)
    (runs : run (readersStep step answer) s labels = some last)
    (ordered : (versions last.publisher).Pairwise (· ≤ ·)) :
    (seen versions (history (readersStep step answer) s labels)).Pairwise NotNewer := by
  refine (run_induction (fun past state => (versions state.publisher).Pairwise (· ≤ ·) →
    (seen versions past).Pairwise NotNewer ∧
      ∀ version ∈ seen versions past, NotNewer version (versions state.publisher).getLast?)
    ?_ ?_ runs ordered).1
  · exact fun _ => ⟨.nil, fun _ member => absurd member List.not_mem_nil⟩
  · intro past state label next holds taken ordered
    rw [seen_concat]
    cases label with
    | own label =>
        obtain ⟨publisher, steps, rfl⟩ := Option.map_eq_some_iff.mp taken
        obtain ⟨before, notNewer⟩ := notNewer_of_publishes publishes steps ordered
        obtain ⟨inOrder, latest⟩ := holds before
        rw [ReadersLabel.looking, Option.map_none, Option.toList_none, List.append_nil]
        exact ⟨inOrder, fun version member => (latest version member).trans notNewer⟩
    | look reader =>
        cases taken
        obtain ⟨inOrder, latest⟩ := holds ordered
        refine ⟨List.pairwise_append.mpr ⟨inOrder, List.pairwise_singleton _ _, ?_⟩, ?_⟩
        · intro version member later isLater
          rw [List.mem_singleton.mp isLater]
          exact latest version member
        · intro version member
          rcases List.mem_append.mp member with member | isLast
          · exact latest version member
          · rw [List.mem_singleton.mp isLast]
            exact .refl _

/-- A reader looks after every step. -/
def probes (reader : Reader) (labels : List Label) : List (ReadersLabel Label Reader) :=
  labels.flatMap fun label => [.own label, .look reader]

theorem ownLabels_probes (reader : Reader) (labels : List Label) :
    ownLabels (probes reader labels) = labels := by
  induction labels with
  | nil => rfl
  | cons label labels ih => exact congrArg (label :: ·) ih

/-- They see every version in its turn. -/
theorem probes_see (answer : Pub → Reader → Answer) (publishes : Publishes step versions)
    {start state : Pub} (nothing : versions start = []) (reader : Reader) {labels : List Label}
    (runs : run step start labels = some state) :
    ∃ answered,
      run (readersStep step answer) ⟨start, []⟩ (probes reader labels) =
        some ⟨state, answered⟩ ∧
      ((versions state).map some).Sublist
        (seen versions (history (readersStep step answer) ⟨start, []⟩ (probes reader labels))) := by
  induction labels using List.reverseRecOn generalizing state with
  | nil =>
      cases runs
      exact ⟨[], rfl, by rw [nothing]; exact List.nil_sublist _⟩
  | append_singleton labels label ih =>
      obtain ⟨middle, before, taken⟩ := run_concat_eq_some runs
      obtain ⟨answered, goes, sees⟩ := ih before
      have steps : readersStep step answer ⟨middle, answered⟩ (.own label) =
          some ⟨state, answered⟩ := Option.map_eq_some_iff.mpr ⟨state, taken, rfl⟩
      have look : run (readersStep step answer) ⟨middle, answered⟩
          [.own label, .look reader] =
            some ⟨state, answered ++ [answer state reader]⟩ := run_cons_of_step _ steps
      have split : (probes reader (labels ++ [label]) : List (ReadersLabel Label Reader)) =
          probes reader labels ++ [.own label, .look reader] := by
        rw [probes, List.flatMap_append, probes]
        exact rfl
      refine ⟨_, by rw [split, run_append goes, look], ?_⟩
      have added : history (readersStep step answer) ⟨middle, answered⟩
          [.own label, .look reader] =
            [(⟨middle, answered⟩, .own label), (⟨state, answered⟩, .look reader)] :=
        history_cons_of_step _ steps
      rw [split, history_append goes, added, ← List.singleton_append, ← List.append_assoc,
        seen_concat, seen_concat]
      change List.Sublist _ (seen versions _ ++ [] ++ [(versions state).getLast?])
      rw [List.append_nil]
      rcases publishes middle label state taken with same | ⟨version, more⟩
      · rw [same]
        exact sees.trans (List.sublist_append_left _ _)
      · rw [more, List.map_append, List.getLast?_concat]
        exact sees.append (List.Sublist.refl _)

/-- Readers see the versions in order, wherever they look, exactly when the
versions are published in order. -/
theorem published_inOrder_iff (answer : Pub → Reader → Answer)
    (publishes : Publishes step versions) {start state : Pub} (nothing : versions start = [])
    (reader : Reader) {labels : List Label} (runs : run step start labels = some state) :
    (∀ more last, run (readersStep step answer) ⟨start, []⟩ more = some last →
      ownLabels more = labels →
      (seen versions (history (readersStep step answer) ⟨start, []⟩ more)).Pairwise NotNewer) ↔
    (versions state).Pairwise (· ≤ ·) := by
  constructor
  · intro inOrder
    obtain ⟨answered, goes, sees⟩ := probes_see answer publishes nothing reader runs
    have ordered := (inOrder _ _ goes (ownLabels_probes reader labels)).sublist sees
    refine (List.pairwise_map.mp ordered).imp fun {index later} notNewer => ?_
    obtain ⟨index', same, le⟩ := notNewer index rfl
    exact Option.some.inj same ▸ le
  · rintro ordered more last goes rfl
    have same := Option.some.inj ((run_own goes).symm.trans runs)
    exact seen_of_published publishes goes (same ▸ ordered)

end Readers

end TailcatSocks.Library
