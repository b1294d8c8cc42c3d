import TailcatSocks.Library.Runs
import TailcatSocks.Library.WatchedFile
import TailcatSocks.Python.DnsMap

/-!
# The Python file watcher

`watch_dns_file` looks at the file through single loads and `os.stat` calls,
between which others may change it.  A label is one such call, with its success
or failure, one assignment, one test of the loop, or one change by others.  An
`OSError` is caught where the source catches it; any other exception ends the
watcher.
-/

namespace TailcatSocks.Python

open Library

/-- Where `watch_dns_file` stands. -/
inductive Point where
  | initLoad
  | initAssign (newMap : Mapping)
  | initStat
  /-- At the test of the loop. -/
  | boundary
  | sleeping
  | load (mtime : Nat)
  | assignLast (mtime : Nat) (newMap : Mapping)
  | assignMap (newMap : Mapping)
  | returned
  /-- An exception has left the function. -/
  | raised

structure Watch where
  file : WatchedFile Bytes
  point : Point
  last : Option Nat
  /-- `proxy.dns_map` -/
  dnsMap : Mapping
  /-- `stop.is_set()` -/
  stopped : Bool

inductive WatchLabel where
  | change (change : Change Bytes)
  | stop
  | test
  | stat (succeeds : Bool)
  | load (succeeds : Bool)
  | assign
  deriving DecidableEq, Repr

def watchStep (table : Str → Str) (s : Watch) : WatchLabel → Option Watch
  | .change change =>
      match s.file.change change with
      | some file => some { s with file }
      | none => none
  | .stop => some { s with stopped := true }
  | .test =>
      match s.point with
      | .boundary => some { s with point := if s.stopped then .returned else .sleeping }
      | _ => none
  | .stat succeeds =>
      match s.point, succeeds, s.file.stat with
      | .initStat, true, some mtime => some { s with point := .boundary, last := some mtime }
      | .initStat, false, _ => some { s with point := .boundary, last := none }
      | .sleeping, true, some mtime =>
          some { s with point := if s.last = some mtime then .boundary else .load mtime }
      | .sleeping, false, _ => some { s with point := .boundary }
      | _, _, _ => none
  | .load succeeds =>
      match s.point, succeeds, s.file.read with
      | .initLoad, true, some (_, content) =>
          match loadDnsMap table content with
          | some newMap => some { s with point := .initAssign newMap }
          | none => some { s with point := .raised }
      | .initLoad, false, _ => some { s with point := .boundary, last := none }
      | .load mtime, true, some (_, content) =>
          match loadDnsMap table content with
          | some newMap => some { s with point := .assignLast mtime newMap }
          | none => some { s with point := .raised }
      | .load _, false, _ => some { s with point := .boundary }
      | _, _, _ => none
  | .assign =>
      match s.point with
      | .initAssign newMap => some { s with point := .initStat, dnsMap := newMap }
      | .assignLast mtime newMap => some { s with point := .assignMap newMap, last := some mtime }
      | .assignMap newMap => some { s with point := .boundary, dnsMap := newMap }
      | _ => none

/-- `watch_dns_file` is called with a proxy whose map is `initial`. -/
def Watch.start (initial : Mapping) : Watch := ⟨.absent, .initLoad, none, initial, false⟩

/-! ## What a step can do -/

inductive Watched (table : Str → Str) (s : Watch) : WatchLabel → Watch → Prop where
  | change {change : Change Bytes} {file : WatchedFile Bytes} :
      s.file.change change = some file → Watched table s (.change change) { s with file }
  | stop : Watched table s .stop { s with stopped := true }
  | leave : s.point = .boundary → s.stopped = true →
      Watched table s .test { s with point := .returned }
  | sleep : s.point = .boundary → s.stopped = false →
      Watched table s .test { s with point := .sleeping }
  | initStat {mtime : Nat} : s.point = .initStat → s.file.stat = some mtime →
      Watched table s (.stat true) { s with point := .boundary, last := some mtime }
  | initStatFails : s.point = .initStat →
      Watched table s (.stat false) { s with point := .boundary, last := none }
  | unchanged {mtime : Nat} : s.point = .sleeping → s.file.stat = some mtime →
      s.last = some mtime → Watched table s (.stat true) { s with point := .boundary }
  | changed {mtime : Nat} : s.point = .sleeping → s.file.stat = some mtime →
      s.last ≠ some mtime → Watched table s (.stat true) { s with point := .load mtime }
  | statFails : s.point = .sleeping →
      Watched table s (.stat false) { s with point := .boundary }
  | initLoad {index : Nat} {content : Bytes} {newMap : Mapping} : s.point = .initLoad →
      s.file.read = some (index, content) → loadDnsMap table content = some newMap →
      Watched table s (.load true) { s with point := .initAssign newMap }
  | initLoadFails : s.point = .initLoad →
      Watched table s (.load false) { s with point := .boundary, last := none }
  | load {mtime index : Nat} {content : Bytes} {newMap : Mapping} : s.point = .load mtime →
      s.file.read = some (index, content) → loadDnsMap table content = some newMap →
      Watched table s (.load true) { s with point := .assignLast mtime newMap }
  | loadFails {mtime : Nat} : s.point = .load mtime →
      Watched table s (.load false) { s with point := .boundary }
  | raise {index : Nat} {content : Bytes} : s.point = .initLoad ∨ (∃ mtime, s.point = .load mtime) →
      s.file.read = some (index, content) → loadDnsMap table content = none →
      Watched table s (.load true) { s with point := .raised }
  | initAssign {newMap : Mapping} : s.point = .initAssign newMap →
      Watched table s .assign { s with point := .initStat, dnsMap := newMap }
  | assignLast {mtime : Nat} {newMap : Mapping} : s.point = .assignLast mtime newMap →
      Watched table s .assign { s with point := .assignMap newMap, last := some mtime }
  | assignMap {newMap : Mapping} : s.point = .assignMap newMap →
      Watched table s .assign { s with point := .boundary, dnsMap := newMap }

theorem watched_of_watchStep {table : Str → Str} {s next : Watch} {label : WatchLabel}
    (taken : watchStep table s label = some next) : Watched table s label next := by
  cases label with
  | change change =>
      simp only [watchStep] at taken
      split at taken <;> cases taken
      exact .change ‹_›
  | stop =>
      cases taken
      exact .stop
  | test =>
      simp only [watchStep] at taken
      split at taken <;> cases taken
      next atBoundary =>
      by_cases stopped : s.stopped = true
      · rw [if_pos stopped]
        exact .leave atBoundary stopped
      · rw [if_neg stopped]
        exact .sleep atBoundary (Bool.eq_false_of_not_eq_true stopped)
  | stat succeeds =>
      simp only [watchStep] at taken
      split at taken
      · cases taken
        exact .initStat ‹_› ‹_›
      · cases taken
        exact .initStatFails ‹_›
      · next mtime isSleeping status =>
        cases taken
        by_cases same : s.last = some mtime
        · rw [if_pos same]
          exact .unchanged isSleeping status same
        · rw [if_neg same]
          exact .changed isSleeping status same
      · cases taken
        exact .statFails ‹_›
      · cases taken
  | load succeeds =>
      simp only [watchStep] at taken
      split at taken
      · split at taken <;> cases taken
        · exact .initLoad ‹_› ‹_› ‹_›
        · exact .raise (.inl ‹_›) ‹_› ‹_›
      · cases taken
        exact .initLoadFails ‹_›
      · split at taken <;> cases taken
        · exact .load ‹_› ‹_› ‹_›
        · exact .raise (.inr ⟨_, ‹_›⟩) ‹_› ‹_›
      · cases taken
        exact .loadFails ‹_›
      · cases taken
  | assign =>
      simp only [watchStep] at taken
      split at taken <;> cases taken
      · exact .initAssign ‹_›
      · exact .assignLast ‹_›
      · exact .assignMap ‹_›

/-! ## What the watcher knows -/

/-- The time stood for a content no newer than one that the map is of. -/
def Covers (table : Str → Str) (file : WatchedFile Bytes) (mtime : Nat) (map : Mapping) : Prop :=
  ∃ earlier index content, file.Stamped mtime earlier ∧ earlier ≤ index ∧ index ≤ file.index ∧
    file.Held index content ∧ loadDnsMap table content = some map

/-- What the watcher knows where it stands. -/
def Knows (table : Str → Str) (s : Watch) : Point → Prop
  | .initLoad | .initAssign _ | .initStat => s.last = none
  | .boundary | .sleeping | .returned =>
      ∀ mtime, s.last = some mtime → Covers table s.file mtime s.dnsMap
  | .load mtime => (∀ mtime, s.last = some mtime → Covers table s.file mtime s.dnsMap) ∧
      ∃ earlier, s.file.Stamped mtime earlier ∧ earlier ≤ s.file.index
  | .assignLast mtime newMap => Covers table s.file mtime newMap
  | .assignMap newMap => ∀ mtime, s.last = some mtime → Covers table s.file mtime newMap
  | .raised => True

/-- The mapping of the file's content. -/
def Watch.current (table : Str → Str) (s : Watch) : Option Mapping :=
  s.file.contents.getLast?.bind (loadDnsMap table)

/-- When the first `os.stat` succeeds, the content of the file still has the
mapping that was loaded before it. -/
def StatSeesLoaded (table : Str → Str) (s : Watch) (label : WatchLabel) : Prop :=
  s.point = .initStat → label = .stat true → s.current table = some s.dnsMap

variable {table : Str → Str}

theorem Covers.mono {file next : WatchedFile Bytes} {mtime : Nat} {map : Mapping}
    (covers : Covers table file mtime map) (ext : file.Extends next) :
    Covers table next mtime map := by
  obtain ⟨earlier, index, content, stamped, le, bounded, held, loads⟩ := covers
  exact ⟨earlier, index, content, ext.stamps stamped, le, Nat.le_trans bounded ext.index_le,
    ext.held held, loads⟩

theorem Knows.change {s : Watch} {file : WatchedFile Bytes} {point : Point}
    (knows : Knows table s point) (ext : s.file.Extends file) :
    Knows table { s with file } point := by
  cases point with
  | initLoad | initAssign _ | initStat | raised => exact knows
  | boundary | sleeping | returned | assignMap _ =>
      exact fun mtime known => (knows mtime known).mono ext
  | load mtime =>
      obtain ⟨current, earlier, stamped, le⟩ := knows
      exact ⟨fun mtime known => (current mtime known).mono ext, earlier, ext.stamps stamped,
        Nat.le_trans le ext.index_le⟩
  | assignLast mtime newMap => exact Covers.mono knows ext

theorem Knows.stop {s : Watch} {point : Point} (knows : Knows table s point) :
    Knows table { s with stopped := true } point := by
  cases point <;> exact knows

theorem current_of_read {s : Watch} {index : Nat} {content : Bytes}
    (reads : s.file.read = some (index, content)) : s.current table = loadDnsMap table content := by
  obtain ⟨rfl, held⟩ := WatchedFile.held_of_read reads
  rw [Watch.current, WatchedFile.held_index_iff.mp held, Option.bind_some]

theorem covers_of_current {s : Watch} (wellFormed : s.file.WellFormed)
    (current : s.current table = some s.dnsMap) {mtime : Nat}
    (status : s.file.stat = some mtime) : Covers table s.file mtime s.dnsMap := by
  obtain ⟨content, isLast, loads⟩ := Option.bind_eq_some_iff.mp current
  exact ⟨s.file.index, s.file.index, content, WatchedFile.stamped_of_stat wellFormed status,
    Nat.le_refl _, Nat.le_refl _, WatchedFile.held_index_iff.mpr isLast, loads⟩

/-- A step keeps the file well formed and the knowledge, if the first `os.stat`
sees what was loaded. -/
theorem Watched.knows {s next : Watch} {label : WatchLabel}
    (watched : Watched table s label next) (wellFormed : s.file.WellFormed)
    (knows : Knows table s s.point) (sees : StatSeesLoaded table s label) :
    next.file.WellFormed ∧ Knows table next next.point := by
  cases watched with
  | change changed =>
      exact ⟨WatchedFile.change_wellFormed wellFormed changed,
        knows.change (WatchedFile.change_extends changed)⟩
  | stop => exact ⟨wellFormed, knows.stop⟩
  | leave point _ | sleep point _ =>
      rw [point] at knows
      exact ⟨wellFormed, knows⟩
  | initStat point status =>
      refine ⟨wellFormed, fun mtime known => ?_⟩
      cases known
      exact covers_of_current wellFormed (sees point rfl) status
  | initStatFails _ | initLoadFails _ => exact ⟨wellFormed, fun mtime known => by cases known⟩
  | unchanged point _ _ | statFails point =>
      rw [point] at knows
      exact ⟨wellFormed, knows⟩
  | changed point status _ =>
      rw [point] at knows
      exact ⟨wellFormed, knows, s.file.index, WatchedFile.stamped_of_stat wellFormed status,
        Nat.le_refl _⟩
  | initLoad point _ _ | initAssign point =>
      rw [point] at knows
      exact ⟨wellFormed, knows⟩
  | load point reads loads =>
      rw [point] at knows
      obtain ⟨-, earlier, stamped, le⟩ := knows
      obtain ⟨rfl, held⟩ := WatchedFile.held_of_read reads
      exact ⟨wellFormed, earlier, s.file.index, _, stamped, le, Nat.le_refl _, held, loads⟩
  | loadFails point =>
      rw [point] at knows
      exact ⟨wellFormed, knows.1⟩
  | raise _ _ _ => exact ⟨wellFormed, trivial⟩
  | assignLast point =>
      rw [point] at knows
      refine ⟨wellFormed, fun mtime known => ?_⟩
      cases known
      exact knows
  | assignMap point =>
      rw [point] at knows
      exact ⟨wellFormed, knows⟩

/-- A time that `last` holds and the file has stands for the current content. -/
theorem current_of_covers {s : Watch} {mtime : Nat} (wellFormed : s.file.WellFormed)
    (covers : Covers table s.file mtime s.dnsMap) (status : s.file.stat = some mtime) :
    s.current table = some s.dnsMap := by
  obtain ⟨earlier, index, content, stamped, le, bounded, held, loads⟩ := covers
  have isLast : s.file.contents.getLast? = some content :=
    WatchedFile.getLast?_of_stamped wellFormed status stamped le bounded held
  exact Option.bind_eq_some_iff.mpr ⟨content, isLast, loads⟩

/-! ## The first load -/

def FirstLoad (entry : Watch × WatchLabel) : Prop :=
  entry.1.point = .initLoad ∧ entry.2 = .load true

def FirstStat (entry : Watch × WatchLabel) : Prop :=
  entry.1.point = .initStat ∧ entry.2 = .stat true

/-- The first load found this mapping. -/
def Loaded (table : Str → Str) (past : List (Watch × WatchLabel)) (map : Mapping) : Prop :=
  ∃ entry ∈ past, FirstLoad entry ∧ entry.1.current table = some map

/-- What the first load did, by where the watcher stands. -/
def Remembers (table : Str → Str) (past : List (Watch × WatchLabel)) (s : Watch) : Point → Prop
  | .initLoad => ∀ entry ∈ past, ¬ FirstLoad entry
  | .initAssign newMap => Loaded table past newMap
  | .initStat => Loaded table past s.dnsMap
  | _ => True

theorem Loaded.append {past : List (Watch × WatchLabel)} {map : Mapping}
    (loaded : Loaded table past map) (entry : Watch × WatchLabel) :
    Loaded table (past ++ [entry]) map := by
  obtain ⟨load, member, first, found⟩ := loaded
  exact ⟨load, List.mem_append_left _ member, first, found⟩

/-- A step that leaves the point and the map keeps what is remembered. -/
theorem Remembers.append {past : List (Watch × WatchLabel)} {s next : Watch} {point : Point}
    {entry : Watch × WatchLabel} (remembers : Remembers table past s point)
    (map : next.dnsMap = s.dnsMap) (other : entry.2 ≠ .load true) :
    Remembers table (past ++ [entry]) next point := by
  cases point with
  | initLoad =>
      intro load member first
      rcases List.mem_append.mp member with before | here
      · exact remembers load before first
      · rw [List.mem_singleton.mp here] at first
        exact other first.2
  | initAssign newMap => exact Loaded.append remembers entry
  | initStat =>
      change Loaded table (past ++ [entry]) next.dnsMap
      rw [map]
      exact Loaded.append remembers entry
  | _ => exact trivial

theorem Watched.remembers {past : List (Watch × WatchLabel)} {s next : Watch} {label : WatchLabel}
    (watched : Watched table s label next) (remembers : Remembers table past s s.point) :
    Remembers table (past ++ [(s, label)]) next next.point := by
  cases watched with
  | change _ => exact remembers.append rfl (by simp)
  | stop => exact remembers.append rfl (by simp)
  | initLoad point reads loads =>
      refine ⟨_, List.mem_append_right _ (List.mem_singleton_self _), ⟨point, rfl⟩, ?_⟩
      rw [current_of_read reads, loads]
  | initAssign point =>
      rw [point] at remembers
      exact Loaded.append remembers _
  | _ => exact trivial

/-- There is one first load. -/
def LoadsOnce (past : List (Watch × WatchLabel)) (s : Watch) : Prop :=
  (s.point = .initLoad → ∀ entry ∈ past, ¬ FirstLoad entry) ∧
    ∀ one ∈ past, ∀ other ∈ past, FirstLoad one → FirstLoad other → one = other

/-- The watcher is at the first load only as long as it has not been made. -/
theorem Watched.at_initLoad {s next : Watch} {label : WatchLabel}
    (watched : Watched table s label next) (point : next.point = .initLoad) :
    s.point = .initLoad ∧ label ≠ .load true := by
  cases watched with
  | change _ | stop => exact ⟨point, by simp⟩
  | _ => cases point

theorem Watched.loadsOnce {past : List (Watch × WatchLabel)} {s next : Watch} {label : WatchLabel}
    (watched : Watched table s label next) (once : LoadsOnce past s) :
    LoadsOnce (past ++ [(s, label)]) next := by
  refine ⟨fun point entry member first => ?_, fun one member other member' first first' => ?_⟩
  · obtain ⟨before, notLoad⟩ := watched.at_initLoad point
    rcases List.mem_append.mp member with inPast | here
    · exact once.1 before entry inPast first
    · rw [List.mem_singleton.mp here] at first
      exact notLoad first.2
  · rcases List.mem_append.mp member with inPast | here <;>
      rcases List.mem_append.mp member' with inPast' | here'
    · exact once.2 one inPast other inPast' first first'
    · rw [List.mem_singleton.mp here'] at first'
      exact absurd first (once.1 first'.1 one inPast)
    · rw [List.mem_singleton.mp here] at first
      exact absurd first' (once.1 first.1 other inPast')
    · rw [List.mem_singleton.mp here, List.mem_singleton.mp here']

/-! ## No update is swallowed -/

variable {initial : Mapping} {labels : List WatchLabel} {s : Watch}

/-- At the test of the loop: a file with the time that `last` holds has the
content that the map is of. -/
def UpToDate (table : Str → Str) (s : Watch) : Prop :=
  s.point = .boundary → ∀ mtime, s.last = some mtime → s.file.stat = some mtime →
    s.current table = some s.dnsMap

theorem start_knows : Knows table (.start initial) (Watch.start initial).point := rfl

theorem run_knows (runs : run (watchStep table) (.start initial) labels = some s)
    (sees : ∀ entry ∈ history (watchStep table) (.start initial) labels,
      StatSeesLoaded table entry.1 entry.2) : s.file.WellFormed ∧ Knows table s s.point :=
  run_invariant_of_forall (fun s => s.file.WellFormed ∧ Knows table s s.point)
    (StatSeesLoaded table) ⟨WatchedFile.absent_wellFormed, start_knows⟩
    (fun _ _ _ ⟨wellFormed, knows⟩ sees taken =>
      (watched_of_watchStep taken).knows wellFormed knows sees) sees runs

theorem run_remembers (runs : run (watchStep table) (.start initial) labels = some s) :
    Remembers table (history (watchStep table) (.start initial) labels) s s.point :=
  run_induction (fun past s => Remembers table past s s.point)
    (fun _ member => absurd member List.not_mem_nil)
    (fun _ _ _ _ remembers taken => (watched_of_watchStep taken).remembers remembers) runs

theorem run_loadsOnce (runs : run (watchStep table) (.start initial) labels = some s) :
    LoadsOnce (history (watchStep table) (.start initial) labels) s :=
  run_induction LoadsOnce
    ⟨fun _ _ member => absurd member List.not_mem_nil,
      fun _ member => absurd member List.not_mem_nil⟩
    (fun _ _ _ _ once taken => (watched_of_watchStep taken).loadsOnce once) runs

/-- At the first `os.stat` the map is what the first load found. -/
theorem loaded_of_firstStat (runs : run (watchStep table) (.start initial) labels = some s)
    {stat : Watch × WatchLabel}
    (member : stat ∈ history (watchStep table) (.start initial) labels) (first : FirstStat stat) :
    ∃ load ∈ history (watchStep table) (.start initial) labels, FirstLoad load ∧
      load.1.current table = some stat.1.dnsMap := by
  obtain ⟨front, back, next, split, reaches, taken, -⟩ := mem_history runs member
  have remembers := run_remembers reaches
  rw [first.1] at remembers
  obtain ⟨load, inFront, isFirst, found⟩ := remembers
  exact ⟨load, mem_history_mono ⟨_, split.symm⟩ reaches inFront, isFirst, found⟩

/-- After the first `os.stat` the watcher is at the test of the loop. -/
theorem current_of_firstStat (runs : run (watchStep table) (.start initial) labels = some s)
    (upToDate : ∀ front middle, front <+: labels →
      run (watchStep table) (.start initial) front = some middle → UpToDate table middle)
    {stat : Watch × WatchLabel}
    (member : stat ∈ history (watchStep table) (.start initial) labels) (first : FirstStat stat) :
    stat.1.current table = some stat.1.dnsMap := by
  obtain ⟨front, next, isPrefix, taken, reaches⟩ := prefix_of_mem_history runs member
  have current := upToDate front next isPrefix reaches
  rw [first.2] at taken
  cases watched_of_watchStep taken with
  | initStat _ status => exact current rfl _ rfl status
  | unchanged point _ _ | changed point _ _ => cases first.1.symm.trans point

/-- In every run the map is up to date at every test of the loop exactly when
the file had the same mapping at the first load and at the first `os.stat`. -/
theorem upToDate_iff (runs : run (watchStep table) (.start initial) labels = some s) :
    (∀ front middle, front <+: labels →
        run (watchStep table) (.start initial) front = some middle → UpToDate table middle) ↔
      ∀ load ∈ history (watchStep table) (.start initial) labels,
        ∀ stat ∈ history (watchStep table) (.start initial) labels,
          FirstLoad load → FirstStat stat → stat.1.current table = load.1.current table := by
  constructor
  · intro upToDate load inRun stat member isLoad isStat
    obtain ⟨load', inRun', isLoad', found⟩ := loaded_of_firstStat runs member isStat
    rw [(run_loadsOnce runs).2 load inRun load' inRun' isLoad isLoad', found]
    exact current_of_firstStat runs upToDate member isStat
  · intro same front middle isPrefix reaches atBoundary mtime known status
    have sees : ∀ entry ∈ history (watchStep table) (.start initial) front,
        StatSeesLoaded table entry.1 entry.2 := by
      intro entry member point isStat
      obtain ⟨load, inFront, isLoad, found⟩ := loaded_of_firstStat reaches member ⟨point, isStat⟩
      have loadInRun := mem_history_mono isPrefix reaches inFront
      have statInRun := mem_history_mono isPrefix reaches member
      rw [same load loadInRun entry statInRun isLoad ⟨point, isStat⟩, found]
    obtain ⟨wellFormed, knows⟩ := run_knows reaches sees
    rw [atBoundary] at knows
    exact current_of_covers wellFormed (knows mtime known) status

/-- The file is there when the watcher starts. -/
def presentAtStart : List WatchLabel :=
  [.change (.write [117, 32, 97] 1), .load true, .assign, .stat true]

theorem upToDate_presentAtStart :
    ∃ s, run (watchStep id) (.start ∅) presentAtStart = some s ∧ s.point = .boundary ∧
      s.current id = some s.dnsMap := by
  have runs : run (watchStep id) (.start ∅) presentAtStart = some _ := rfl
  refine ⟨_, runs, rfl, ?_⟩
  refine (upToDate_iff runs).mpr ?_ presentAtStart _ List.prefix_rfl runs rfl 1 rfl rfl
  have past : history (watchStep id) (.start ∅) presentAtStart = [_, _, _, _] := rfl
  rw [past]
  intro load inRun stat inRun' isLoad isStat
  simp only [List.mem_cons, List.not_mem_nil, or_false] at inRun inRun'
  rcases inRun with rfl | rfl | rfl | rfl
  case inr.inl =>
      rcases inRun' with rfl | rfl | rfl | rfl
      case inr.inr.inr => rfl
      all_goals cases isStat.2
  all_goals cases isLoad.2

/-- The file is there when the watcher starts, and is written again before the
first `os.stat`. -/
def writtenAtStart : List WatchLabel :=
  [.change (.write [117, 32, 97] 1), .load true, .assign, .change (.write [118, 32, 97] 2),
    .stat true]

/-- Then `last` is the time of the second content and the map is of the first. -/
theorem stale_writtenAtStart :
    ∃ s, run (watchStep id) (.start ∅) writtenAtStart = some s ∧ s.point = .boundary ∧
      s.last = some 2 ∧ s.file.stat = some 2 ∧ s.current id ≠ some s.dnsMap := by
  have runs : run (watchStep id) (.start ∅) writtenAtStart = some _ := rfl
  refine ⟨_, runs, rfl, rfl, rfl, fun same => ?_⟩
  have lookups := congrArg (Option.map fun map : Mapping => map.lookup [97]) same
  exact absurd lookups (by decide)

end TailcatSocks.Python
