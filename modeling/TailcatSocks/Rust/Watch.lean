import TailcatSocks.Library.Runs
import TailcatSocks.Library.WatchedFile
import TailcatSocks.Rust.DnsMap

/-!
# The Rust file watcher

`watch` looks at the file through single `stat` and `read` calls, between which
others may change it.  A label is one such call, with its success or failure,
one store, or one change by others.  What the watcher has stored is kept with
the index of the content that it came from.
-/

namespace TailcatSocks.Rust

open Library

/-- Where `watch` stands. -/
inductive Point where
  | initStat
  | initLoad
  | initStore (index : Nat) (content : Bytes)
  /-- In `select!`, waiting for the next tick. -/
  | tick
  | load (mtime : Nat)
  | store (mtime index : Nat) (content : Bytes)
  | returned
  deriving DecidableEq, Repr

structure Watch where
  file : WatchedFile Bytes
  point : Point
  lastMod : Option Nat
  map : Mapping
  /-- What was stored so far, with the index of the content it came from. -/
  published : List (Nat × Mapping)

inductive WatchLabel where
  | change (change : Change Bytes)
  | stat (succeeds : Bool)
  | load (succeeds : Bool)
  | store
  | cancel
  deriving DecidableEq, Repr

/-- The outcome of a system call: it may always fail, and succeeds only when
there is a result. -/
def outcome {α : Type} (succeeds : Bool) (result : Option α) : Option (Option α) :=
  match succeeds, result with
  | false, _ => some none
  | true, some a => some (some a)
  | true, none => none

/-- `map.store(..)`. -/
def Watch.publish (s : Watch) (lastMod : Option Nat) (index : Nat) (content : Bytes) : Watch :=
  ⟨s.file, .tick, lastMod, parseDns content, s.published ++ [(index, parseDns content)]⟩

def watchStep (s : Watch) : WatchLabel → Option Watch
  | .change change =>
      match s.file.change change with
      | some file => some ⟨file, s.point, s.lastMod, s.map, s.published⟩
      | none => none
  | .stat succeeds =>
      match s.point, outcome succeeds s.file.stat with
      | .initStat, some (some mtime) => some ⟨s.file, .initLoad, some mtime, s.map, s.published⟩
      | .initStat, some none => some ⟨s.file, .initLoad, s.lastMod, s.map, s.published⟩
      | .tick, some (some mtime) =>
          if s.lastMod = some mtime then some s
          else some ⟨s.file, .load mtime, s.lastMod, s.map, s.published⟩
      | .tick, some none => some s
      | _, _ => none
  | .load succeeds =>
      match s.point, outcome succeeds s.file.read with
      | .initLoad, some (some (index, content)) =>
          some ⟨s.file, .initStore index content, s.lastMod, s.map, s.published⟩
      -- retry the initial load on every tick
      | .initLoad, some none => some ⟨s.file, .tick, none, s.map, s.published⟩
      | .load mtime, some (some (index, content)) =>
          some ⟨s.file, .store mtime index content, s.lastMod, s.map, s.published⟩
      | .load _, some none => some ⟨s.file, .tick, s.lastMod, s.map, s.published⟩
      | _, _ => none
  | .store =>
      match s.point with
      | .initStore index content => some (s.publish s.lastMod index content)
      | .store mtime index content => some (s.publish (some mtime) index content)
      | _ => none
  | .cancel =>
      match s.point with
      | .tick => some ⟨s.file, .returned, s.lastMod, s.map, s.published⟩
      | _ => none

/-- `watch` is called with a map that already holds `initial`. -/
def Watch.start (initial : Mapping) : Watch := ⟨.absent, .initStat, none, initial, []⟩

/-! ## What a step can do -/

inductive Watched (s : Watch) : WatchLabel → Watch → Prop where
  | change {change : Change Bytes} {file : WatchedFile Bytes} :
      s.file.change change = some file →
      Watched s (.change change) ⟨file, s.point, s.lastMod, s.map, s.published⟩
  | initStat {mtime : Nat} : s.point = .initStat → s.file.stat = some mtime →
      Watched s (.stat true) ⟨s.file, .initLoad, some mtime, s.map, s.published⟩
  | initStatFails : s.point = .initStat →
      Watched s (.stat false) ⟨s.file, .initLoad, s.lastMod, s.map, s.published⟩
  | initLoad {index : Nat} {content : Bytes} : s.point = .initLoad →
      s.file.read = some (index, content) →
      Watched s (.load true) ⟨s.file, .initStore index content, s.lastMod, s.map, s.published⟩
  | initLoadFails : s.point = .initLoad →
      Watched s (.load false) ⟨s.file, .tick, none, s.map, s.published⟩
  | initStore {index : Nat} {content : Bytes} : s.point = .initStore index content →
      Watched s .store (s.publish s.lastMod index content)
  | unchanged {mtime : Nat} : s.point = .tick → s.file.stat = some mtime →
      s.lastMod = some mtime → Watched s (.stat true) s
  | changed {mtime : Nat} : s.point = .tick → s.file.stat = some mtime →
      s.lastMod ≠ some mtime →
      Watched s (.stat true) ⟨s.file, .load mtime, s.lastMod, s.map, s.published⟩
  | statFails : s.point = .tick → Watched s (.stat false) s
  | load {mtime index : Nat} {content : Bytes} : s.point = .load mtime →
      s.file.read = some (index, content) →
      Watched s (.load true) ⟨s.file, .store mtime index content, s.lastMod, s.map, s.published⟩
  | loadFails {mtime : Nat} : s.point = .load mtime →
      Watched s (.load false) ⟨s.file, .tick, s.lastMod, s.map, s.published⟩
  | store {mtime index : Nat} {content : Bytes} : s.point = .store mtime index content →
      Watched s .store (s.publish (some mtime) index content)
  | cancel : s.point = .tick →
      Watched s .cancel ⟨s.file, .returned, s.lastMod, s.map, s.published⟩

theorem outcome_eq_some {α : Type} {succeeds : Bool} {result : Option α} {a : α}
    (succeeded : outcome succeeds result = some (some a)) : succeeds = true ∧ result = some a := by
  unfold outcome at succeeded
  split at succeeded <;> cases succeeded
  exact ⟨rfl, rfl⟩

theorem outcome_eq_none {α : Type} {succeeds : Bool} {result : Option α}
    (failed : outcome succeeds result = some none) : succeeds = false := by
  unfold outcome at failed
  split at failed <;> cases failed
  rfl

theorem watched_of_watchStep {s next : Watch} {label : WatchLabel}
    (taken : watchStep s label = some next) : Watched s label next := by
  cases label with
  | change change =>
      simp only [watchStep] at taken
      split at taken <;> cases taken
      exact .change ‹_›
  | stat succeeds =>
      simp only [watchStep] at taken
      split at taken
      · next mtime point result =>
        cases taken
        obtain ⟨rfl, status⟩ := outcome_eq_some result
        exact .initStat point status
      · next point result =>
        cases taken
        obtain rfl := outcome_eq_none result
        exact .initStatFails point
      · next mtime point result =>
        obtain ⟨rfl, status⟩ := outcome_eq_some result
        split at taken <;> cases taken
        · exact .unchanged point status ‹_›
        · exact .changed point status ‹_›
      · next point result =>
        cases taken
        obtain rfl := outcome_eq_none result
        exact .statFails point
      · cases taken
  | load succeeds =>
      simp only [watchStep] at taken
      split at taken
      · next index content point result =>
        cases taken
        obtain ⟨rfl, reads⟩ := outcome_eq_some result
        exact .initLoad point reads
      · next point result =>
        cases taken
        obtain rfl := outcome_eq_none result
        exact .initLoadFails point
      · next mtime index content point result =>
        cases taken
        obtain ⟨rfl, reads⟩ := outcome_eq_some result
        exact .load point reads
      · next mtime point result =>
        cases taken
        obtain rfl := outcome_eq_none result
        exact .loadFails point
      · cases taken
  | store =>
      simp only [watchStep] at taken
      split at taken <;> cases taken
      · exact .initStore ‹_›
      · exact .store ‹_›
  | cancel =>
      simp only [watchStep] at taken
      split at taken <;> cases taken
      exact .cancel ‹_›

/-! ## Where a map comes from -/

/-- The time stood for the content with this index or for an earlier one. -/
def Covered (file : WatchedFile Bytes) (mtime index : Nat) : Prop :=
  ∃ earlier, earlier ≤ index ∧ file.Stamped mtime earlier

/-- The time in `last_mod` is covered by the latest map. -/
def Current (file : WatchedFile Bytes) (lastMod : Option Nat) (published : List (Nat × Mapping)) :
    Prop :=
  ∀ mtime, lastMod = some mtime →
    ∃ entry, published.getLast? = some entry ∧ Covered file mtime entry.1

/-- A content that was read and not stored yet. -/
structure Loaded (file : WatchedFile Bytes) (published : List (Nat × Mapping)) (index : Nat)
    (content : Bytes) : Prop where
  held : file.Held index content
  bounded : index ≤ file.index
  latest : ∀ entry ∈ published, entry.1 ≤ index

/-- What `watch` knows where it stands. -/
def Knows (s : Watch) : Point → Prop
  | .initStat => s.lastMod = none ∧ s.published = []
  | .initLoad => s.published = [] ∧
      ∀ mtime, s.lastMod = some mtime → Covered s.file mtime s.file.index
  | .initStore index content => s.published = [] ∧ Loaded s.file s.published index content ∧
      ∀ mtime, s.lastMod = some mtime → Covered s.file mtime index
  | .tick | .returned => Current s.file s.lastMod s.published
  | .load mtime => Current s.file s.lastMod s.published ∧ Covered s.file mtime s.file.index
  | .store mtime index content => Current s.file s.lastMod s.published ∧
      Loaded s.file s.published index content ∧ Covered s.file mtime index

/-- What every interleaving of the watcher with the others keeps. -/
structure Consistent (initial : Mapping) (s : Watch) : Prop where
  wellFormed : s.file.WellFormed
  latest : s.map = (s.published.getLast?.map Prod.snd).getD initial
  parsed : ∀ entry ∈ s.published, ∃ content, s.file.Held entry.1 content ∧
    entry.2 = parseDns content
  bounded : ∀ entry ∈ s.published, entry.1 ≤ s.file.index
  ordered : s.published.Pairwise fun entry later => entry.1 ≤ later.1
  knows : Knows s s.point

theorem start_consistent (initial : Mapping) : Consistent initial (.start initial) where
  wellFormed := WatchedFile.absent_wellFormed
  latest := rfl
  parsed _ member := absurd member List.not_mem_nil
  bounded _ member := absurd member List.not_mem_nil
  ordered := .nil
  knows := ⟨rfl, rfl⟩

theorem Covered.mono {file next : WatchedFile Bytes} {mtime index index' : Nat}
    (covered : Covered file mtime index) (ext : file.Extends next) (le : index ≤ index') :
    Covered next mtime index' := by
  obtain ⟨earlier, bound, stamped⟩ := covered
  exact ⟨earlier, Nat.le_trans bound le, ext.stamps stamped⟩

theorem covered_of_stat {file : WatchedFile Bytes} {mtime : Nat} (wellFormed : file.WellFormed)
    (status : file.stat = some mtime) : Covered file mtime file.index :=
  ⟨file.index, Nat.le_refl _, WatchedFile.stamped_of_stat wellFormed status⟩

theorem Current.mono {file next : WatchedFile Bytes} {lastMod : Option Nat}
    {published : List (Nat × Mapping)} (current : Current file lastMod published)
    (ext : file.Extends next) : Current next lastMod published := by
  intro mtime known
  obtain ⟨entry, last, covered⟩ := current mtime known
  exact ⟨entry, last, covered.mono ext (Nat.le_refl _)⟩

theorem Loaded.mono {file next : WatchedFile Bytes} {published : List (Nat × Mapping)}
    {index : Nat} {content : Bytes} (loaded : Loaded file published index content)
    (ext : file.Extends next) : Loaded next published index content :=
  ⟨ext.held loaded.held, Nat.le_trans loaded.bounded ext.index_le, loaded.latest⟩

theorem current_none (file : WatchedFile Bytes) (published : List (Nat × Mapping)) :
    Current file none published := by
  intro mtime known
  cases known

theorem loaded_of_read {initial : Mapping} {s : Watch} {index : Nat} {content : Bytes}
    (consistent : Consistent initial s) (reads : s.file.read = some (index, content)) :
    Loaded s.file s.published index content ∧ index = s.file.index := by
  obtain ⟨rfl, held⟩ := WatchedFile.held_of_read reads
  exact ⟨⟨held, Nat.le_refl _, consistent.bounded⟩, rfl⟩

/-- What `watch` knows outlasts a change of the file. -/
theorem Knows.change {s : Watch} {file : WatchedFile Bytes} {point : Point}
    (knows : Knows s point) (ext : s.file.Extends file) :
    Knows ⟨file, s.point, s.lastMod, s.map, s.published⟩ point := by
  have le := ext.index_le
  cases point with
  | initStat => exact knows
  | initLoad => exact ⟨knows.1, fun mtime known => (knows.2 mtime known).mono ext le⟩
  | initStore index content =>
      obtain ⟨first, loaded, covered⟩ := knows
      exact ⟨first, loaded.mono ext,
        fun mtime known => (covered mtime known).mono ext (Nat.le_refl _)⟩
  | tick => exact knows.mono ext
  | load mtime => exact ⟨knows.1.mono ext, knows.2.mono ext le⟩
  | store mtime index content =>
      obtain ⟨current, loaded, covered⟩ := knows
      exact ⟨current.mono ext, loaded.mono ext, covered.mono ext (Nat.le_refl _)⟩
  | returned => exact knows.mono ext

theorem Consistent.change {initial : Mapping} {s : Watch} {change : Change Bytes}
    {file : WatchedFile Bytes} (consistent : Consistent initial s)
    (changed : s.file.change change = some file) :
    Consistent initial ⟨file, s.point, s.lastMod, s.map, s.published⟩ := by
  have ext := WatchedFile.change_extends changed
  refine ⟨WatchedFile.change_wellFormed consistent.wellFormed changed, consistent.latest, ?_, ?_,
    consistent.ordered, consistent.knows.change ext⟩
  · intro entry member
    obtain ⟨content, held, same⟩ := consistent.parsed entry member
    exact ⟨content, ext.held held, same⟩
  · intro entry member
    exact Nat.le_trans (consistent.bounded entry member) ext.index_le

/-- Only `last_mod` and the place in the code move. -/
theorem Consistent.move {initial : Mapping} {s : Watch} (consistent : Consistent initial s)
    {point : Point} {lastMod : Option Nat}
    (knows : Knows ⟨s.file, point, lastMod, s.map, s.published⟩ point) :
    Consistent initial ⟨s.file, point, lastMod, s.map, s.published⟩ :=
  ⟨consistent.wellFormed, consistent.latest, consistent.parsed, consistent.bounded,
    consistent.ordered, knows⟩

theorem Consistent.publish {initial : Mapping} {s : Watch} (consistent : Consistent initial s)
    {lastMod : Option Nat} {index : Nat} {content : Bytes}
    (loaded : Loaded s.file s.published index content)
    (covered : ∀ mtime, lastMod = some mtime → Covered s.file mtime index) :
    Consistent initial (s.publish lastMod index content) := by
  refine ⟨consistent.wellFormed, ?_, ?_, ?_, ?_, ?_⟩
  · simp [Watch.publish]
  · intro entry member
    rcases List.mem_append.mp member with member | member
    · exact consistent.parsed entry member
    · cases List.mem_singleton.mp member
      exact ⟨content, loaded.held, rfl⟩
  · intro entry member
    rcases List.mem_append.mp member with member | member
    · exact consistent.bounded entry member
    · cases List.mem_singleton.mp member
      exact loaded.bounded
  · refine List.pairwise_append.mpr ⟨consistent.ordered, List.pairwise_singleton _ _, ?_⟩
    intro entry member later isNew
    cases List.mem_singleton.mp isNew
    exact loaded.latest entry member
  · intro mtime known
    exact ⟨(index, parseDns content), List.getLast?_concat, covered mtime known⟩

/-- Every step keeps the invariant.  The file may change between `stat` and
`read`, which is why a time is covered and not exact. -/
theorem Consistent.step {initial : Mapping} {s next : Watch} {label : WatchLabel}
    (consistent : Consistent initial s) (watched : Watched s label next) :
    Consistent initial next := by
  have knows := consistent.knows
  cases watched with
  | change changed => exact consistent.change changed
  | initStat point status =>
      rw [point] at knows
      refine consistent.move ⟨knows.2, fun mtime known => ?_⟩
      cases known
      exact covered_of_stat consistent.wellFormed status
  | initStatFails point =>
      rw [point] at knows
      refine consistent.move ⟨knows.2, fun mtime known => ?_⟩
      cases knows.1.symm.trans known
  | initLoad point reads =>
      rw [point] at knows
      obtain ⟨loaded, rfl⟩ := loaded_of_read consistent reads
      exact consistent.move ⟨knows.1, loaded, knows.2⟩
  | initLoadFails point => exact consistent.move (current_none _ _)
  | initStore point =>
      rw [point] at knows
      exact consistent.publish knows.2.1 knows.2.2
  | unchanged _ _ _ => exact consistent
  | changed point status _ =>
      rw [point] at knows
      exact consistent.move ⟨knows, covered_of_stat consistent.wellFormed status⟩
  | statFails _ => exact consistent
  | load point reads =>
      rw [point] at knows
      obtain ⟨loaded, rfl⟩ := loaded_of_read consistent reads
      exact consistent.move ⟨knows.1, loaded, knows.2⟩
  | loadFails point =>
      rw [point] at knows
      exact consistent.move knows.1
  | store point =>
      rw [point] at knows
      refine consistent.publish knows.2.1 fun mtime known => ?_
      cases known
      exact knows.2.2
  | cancel point =>
      rw [point] at knows
      exact consistent.move knows

theorem run_consistent {initial : Mapping} {labels : List WatchLabel} {s : Watch}
    (runs : run watchStep (.start initial) labels = some s) : Consistent initial s :=
  run_invariant (Consistent initial) (start_consistent initial)
    (fun _ _ _ consistent taken => consistent.step (watched_of_watchStep taken)) runs

/-! ## The map and the file -/

/-- A time that `last_mod` holds and the file has stands for the latest map. -/
theorem Consistent.map_eq {initial : Mapping} {s : Watch} {mtime : Nat}
    (consistent : Consistent initial s) (atTick : s.point = .tick)
    (known : s.lastMod = some mtime) (status : s.file.stat = some mtime) :
    ∃ content, s.file.contents.getLast? = some content ∧ s.map = parseDns content := by
  have knows := consistent.knows
  rw [atTick] at knows
  obtain ⟨⟨index, map⟩, last, earlier, le, stamped⟩ := knows mtime known
  have member : (index, map) ∈ s.published := List.mem_of_getLast? last
  obtain ⟨content, held, rfl⟩ := consistent.parsed _ member
  have isLast : s.file.contents.getLast? = some content :=
    WatchedFile.getLast?_of_stamped consistent.wellFormed status stamped le
      (consistent.bounded _ member) held
  refine ⟨content, isLast, ?_⟩
  rw [consistent.latest, last]
  rfl

/-- Between two ticks without a store nothing is published and `last_mod` stays. -/
theorem unchanged_of_not_store {s t : Watch} {labels : List WatchLabel}
    (atTick : s.point = .tick) (runs : run watchStep s labels = some t)
    (noStore : .store ∉ labels) :
    t.map = s.map ∧ t.lastMod = s.lastMod ∧ t.published = s.published := by
  have kept := run_invariant_of_labels
    (fun t => (t.point = .tick ∨ t.point = .returned ∨ (∃ mtime, t.point = .load mtime) ∨
        ∃ mtime index content, t.point = .store mtime index content) ∧
      t.map = s.map ∧ t.lastMod = s.lastMod ∧ t.published = s.published)
    (fun label => label ≠ .store) ⟨.inl atTick, rfl, rfl, rfl⟩ ?_ ?_ runs
  · exact kept.2
  · rintro state label next ⟨inLoop, same⟩ notStore taken
    cases watched_of_watchStep taken with
    | change _ => exact ⟨inLoop, same⟩
    | initStat point _ | initStatFails point | initLoad point _ | initLoadFails point =>
        simp [point] at inLoop
    | initStore _ => exact absurd rfl notStore
    | unchanged _ _ _ => exact ⟨inLoop, same⟩
    | changed _ _ _ => exact ⟨.inr (.inr (.inl ⟨_, rfl⟩)), same⟩
    | statFails _ => exact ⟨inLoop, same⟩
    | load _ _ => exact ⟨.inr (.inr (.inr ⟨_, _, _, rfl⟩)), same⟩
    | loadFails _ => exact ⟨.inl rfl, same⟩
    | store _ => exact absurd rfl notStore
    | cancel _ => exact ⟨.inr (.inl rfl), same⟩
  · rintro _ member rfl
    exact noStore member

/-- In every reachable state: at a tick whose time is the recorded one the map
is the current content's; every map that was stored is one of a content that
the file held, and none of them is older than one before it; a tick that
does not store leaves the map and `last_mod` as they were, and one whose `stat`
or `read` fails does not store; and until the first store `last_mod` is
`None`, so that a tick whose `stat` succeeds goes on to load. -/
theorem watch_swallows_no_update {initial : Mapping} {labels : List WatchLabel} {s : Watch}
    (runs : run watchStep (.start initial) labels = some s) :
    (∀ mtime, s.point = .tick → s.lastMod = some mtime → s.file.stat = some mtime →
        ∃ content, s.file.contents.getLast? = some content ∧ s.map = parseDns content) ∧
      (∀ entry ∈ s.published, ∃ content, s.file.contents[entry.1]? = some content ∧
        entry.2 = parseDns content) ∧
      s.map = (s.published.getLast?.map Prod.snd).getD initial ∧
      s.published.Pairwise (fun entry later => entry.1 ≤ later.1) ∧
      (∀ labels' t, s.point = .tick → run watchStep s labels' = some t → .store ∉ labels' →
        t.map = s.map ∧ t.lastMod = s.lastMod ∧ t.published = s.published) ∧
      (∀ next, s.point = .tick → watchStep s (.stat false) = some next → next = s) ∧
      (∀ mtime next, s.point = .load mtime → watchStep s (.load false) = some next →
        next.point = .tick ∧ next.map = s.map ∧ next.lastMod = s.lastMod) ∧
      (∀ next, s.point = .initLoad → watchStep s (.load false) = some next →
        next.point = .tick ∧ next.map = s.map ∧ next.lastMod = none) ∧
      (s.point = .tick → s.published = [] →
        s.map = initial ∧ s.lastMod = none ∧
          ∀ next, watchStep s (.stat true) = some next → ∃ mtime, next.point = .load mtime) := by
  have consistent := run_consistent runs
  have knows := consistent.knows
  refine ⟨fun mtime => consistent.map_eq, consistent.parsed, consistent.latest,
    consistent.ordered, fun labels' t => unchanged_of_not_store, ?_, ?_, ?_, ?_⟩
  · intro next atTick taken
    cases watched_of_watchStep taken with
    | initStatFails point => cases atTick.symm.trans point
    | statFails _ => rfl
  · intro mtime next atLoad taken
    cases watched_of_watchStep taken with
    | initLoadFails point => cases atLoad.symm.trans point
    | loadFails _ => exact ⟨rfl, rfl, rfl⟩
  · intro next atLoad taken
    cases watched_of_watchStep taken with
    | initLoadFails _ => exact ⟨rfl, rfl, rfl⟩
    | loadFails point => cases atLoad.symm.trans point
  · intro atTick first
    rw [atTick] at knows
    have unknown : s.lastMod = none := by
      cases known : s.lastMod with
      | none => rfl
      | some mtime =>
          obtain ⟨entry, last, -⟩ := knows mtime known
          rw [first] at last
          cases last
    refine ⟨by rw [consistent.latest, first]; rfl, unknown, ?_⟩
    intro next taken
    cases watched_of_watchStep taken with
    | initStat point _ => cases atTick.symm.trans point
    | unchanged _ _ known => cases unknown.symm.trans known
    | changed _ _ _ => exact ⟨_, rfl⟩

/-- The file is there, with the line `t d`, when `watch` is called. -/
def loadAtStart : List WatchLabel :=
  [.change (.write [116, 32, 100, 10] 5), .stat true, .load true, .store]

/-- At the first tick the map is then the one of that line. -/
theorem watch_swallows_no_update_loadAtStart :
    ∃ s, run watchStep (.start ∅) loadAtStart = some s ∧
      ∃ content, s.file.contents.getLast? = some content ∧ s.map = parseDns content :=
  have runs : run watchStep (.start ∅) loadAtStart = some _ := rfl
  ⟨_, runs, (watch_swallows_no_update runs).1 5 rfl rfl rfl⟩

end TailcatSocks.Rust
