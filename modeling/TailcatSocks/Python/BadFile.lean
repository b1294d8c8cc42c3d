import TailcatSocks.Python.Watch

/-!
# The Python watcher and files that do not load

A tick of `watch_dns_file` goes from its sleep to the next test of the loop.  A
missing or unreadable file fails with an `OSError`, which the tick survives.
What is not UTF-8 fails in the decoder with a `ValueError`, which nothing
catches.
-/

namespace TailcatSocks.Python

open Library

def WatchLabel.Own : WatchLabel → Prop
  | .change _ | .stop => False
  | _ => True

/-- A load finds UTF-8. -/
def ReadsText (s : Watch) : WatchLabel → Prop
  | .load true => ∀ content ∈ s.file.contents.getLast?, validUtf8 content = true
  | _ => True

instance (s : Watch) (label : WatchLabel) : Decidable (ReadsText s label) := by
  unfold ReadsText
  split <;> infer_instance

variable {table : Str → Str}

/-- The call of this step fails. -/
def Failed (table : Str → Str) (entry : Watch × WatchLabel) : Prop :=
  entry.2 = .stat false ∨ entry.2 = .load false ∨
    entry.2 = .load true ∧ entry.1.current table = none

def Unchanged (s later : Watch) : Prop := later.dnsMap = s.dnsMap ∧ later.last = s.last

/-! ## What a tick did -/

section Tick

variable {past : List (Watch × WatchLabel)} {start s next : Watch} {label : WatchLabel}

def NoFailure (table : Str → Str) (past : List (Watch × WatchLabel)) : Prop :=
  ∀ entry ∈ past, ¬ Failed table entry

def Saw (past : List (Watch × WatchLabel)) (status : Option Nat) : Prop :=
  ∀ entry ∈ past, entry.2 = .stat true → entry.1.file.stat = status

def Found (table : Str → Str) (past : List (Watch × WatchLabel)) (map : Mapping) : Prop :=
  ∃ entry ∈ past, entry.2 = .load true ∧ entry.1.current table = some map

/-- The mapping that a load found is published with the time that was seen before. -/
def Published (table : Str → Str) (past : List (Watch × WatchLabel)) (s : Watch)
    (map : Mapping) : Prop :=
  NoFailure table past ∧ (∃ mtime, s.last = some mtime ∧ Saw past (some mtime)) ∧
    Found table past map

/-- What a tick that began in `start` did so far, by where the watcher stands. -/
def Ticked (table : Str → Str) (start : Watch) (past : List (Watch × WatchLabel)) (s : Watch) :
    Point → Prop
  | .sleeping => Unchanged start s ∧ NoFailure table past ∧ ∀ entry ∈ past, entry.2 ≠ .stat true
  | .load mtime => Unchanged start s ∧ NoFailure table past ∧ Saw past (some mtime)
  | .assignLast mtime newMap =>
      NoFailure table past ∧ Saw past (some mtime) ∧ Found table past newMap
  | .assignMap newMap => Published table past s newMap
  | .boundary => Unchanged start s ∧ (NoFailure table past → Saw past start.last) ∨
      Published table past s s.dnsMap
  | .raised => Unchanged start s
  | _ => False

theorem NoFailure.append {entry : Watch × WatchLabel} (none : NoFailure table past)
    (succeeds : ¬ Failed table entry) : NoFailure table (past ++ [entry]) :=
  List.forall_mem_append.mpr ⟨none, List.forall_mem_singleton.mpr succeeds⟩

theorem Saw.append {status : Option Nat} {entry : Watch × WatchLabel} (saw : Saw past status)
    (sees : entry.2 = .stat true → entry.1.file.stat = status) : Saw (past ++ [entry]) status :=
  List.forall_mem_append.mpr ⟨saw, List.forall_mem_singleton.mpr sees⟩

theorem Found.append {map : Mapping} (found : Found table past map)
    (entry : Watch × WatchLabel) : Found table (past ++ [entry]) map := by
  obtain ⟨load, member, isLoad, current⟩ := found
  exact ⟨load, List.mem_append_left _ member, isLoad, current⟩

theorem not_noFailure {entry : Watch × WatchLabel} (failed : Failed table entry) :
    ¬ NoFailure table (past ++ [entry]) :=
  fun none => none entry (List.mem_append_right _ (List.mem_singleton_self _)) failed

/-- No call is made in the step. -/
theorem Published.append {map : Mapping} {entry : Watch × WatchLabel}
    (published : Published table past s map) (last : next.last = s.last)
    (succeeds : ¬ Failed table entry) (notStat : entry.2 ≠ .stat true) :
    Published table (past ++ [entry]) next map := by
  obtain ⟨none, ⟨mtime, known, saw⟩, found⟩ := published
  exact ⟨none.append succeeds, ⟨mtime, last.trans known, saw.append (absurd · notStat)⟩,
    found.append entry⟩

/-- What others do in between changes nothing about a tick. -/
theorem Ticked.append {point : Point} {entry : Watch × WatchLabel}
    (ticked : Ticked table start past s point) (map : next.dnsMap = s.dnsMap)
    (last : next.last = s.last) (succeeds : ¬ Failed table entry) (notStat : entry.2 ≠ .stat true) :
    Ticked table start (past ++ [entry]) next point := by
  have unchanged : Unchanged start s → Unchanged start next :=
    fun same => ⟨map.trans same.1, last.trans same.2⟩
  cases point with
  | sleeping =>
      obtain ⟨same, none, noStat⟩ := ticked
      exact ⟨unchanged same, none.append succeeds,
        List.forall_mem_append.mpr ⟨noStat, List.forall_mem_singleton.mpr notStat⟩⟩
  | load mtime =>
      obtain ⟨same, none, saw⟩ := ticked
      exact ⟨unchanged same, none.append succeeds, saw.append (absurd · notStat)⟩
  | assignLast mtime newMap =>
      obtain ⟨none, saw, found⟩ := ticked
      exact ⟨none.append succeeds, saw.append (absurd · notStat), found.append entry⟩
  | assignMap newMap => exact Published.append ticked last succeeds notStat
  | boundary =>
      rcases ticked with ⟨same, saw⟩ | published
      · refine .inl ⟨unchanged same, fun none => ?_⟩
        exact (saw fun entry member => none entry (List.mem_append_left _ member)).append
          (absurd · notStat)
      · refine .inr ?_
        rw [map]
        exact published.append last succeeds notStat
  | raised => exact unchanged ticked
  | initLoad | initAssign _ | initStat | returned => exact ticked

/-- What a step adds to a tick. -/
theorem Watched.ticked (watched : Watched table s label next)
    (ticked : Ticked table start past s s.point) (inTick : label ≠ .test) :
    Ticked table start (past ++ [(s, label)]) next next.point := by
  cases watched with
  | change _ => exact ticked.append rfl rfl (by simp [Failed]) (by simp)
  | stop => exact ticked.append rfl rfl (by simp [Failed]) (by simp)
  | leave _ _ | sleep _ _ => exact absurd rfl inTick
  | initStat point _ | initStatFails point | initLoad point _ _ | initLoadFails point
  | initAssign point =>
      rw [point] at ticked
      exact ticked.elim
  | unchanged point status known =>
      rw [point] at ticked
      obtain ⟨same, -, noStat⟩ := ticked
      refine .inl ⟨same, fun _ => ?_⟩
      have none : Saw past start.last :=
        fun entry member isStat => absurd isStat (noStat entry member)
      exact none.append fun _ => status.trans (known.symm.trans same.2)
  | changed point status _ =>
      rw [point] at ticked
      obtain ⟨same, none, noStat⟩ := ticked
      refine ⟨same, none.append (by simp [Failed]), ?_⟩
      exact Saw.append (fun entry member isStat => absurd isStat (noStat entry member))
        fun _ => status
  | statFails point =>
      rw [point] at ticked
      exact .inl ⟨ticked.1, fun none => absurd none (not_noFailure (.inl rfl))⟩
  | load point reads loads =>
      rw [point] at ticked
      obtain ⟨-, none, saw⟩ := ticked
      have current := (current_of_read reads).trans loads
      refine ⟨none.append (by simp [Failed, current]), saw.append (by simp), ?_⟩
      exact ⟨_, List.mem_append_right _ (List.mem_singleton_self _), rfl, current⟩
  | loadFails point =>
      rw [point] at ticked
      exact .inl ⟨ticked.1, fun none => absurd none (not_noFailure (.inr (.inl rfl)))⟩
  | raise point _ _ =>
      rcases point with point | ⟨mtime, point⟩ <;> rw [point] at ticked
      · exact ticked.elim
      · exact ticked.1
  | assignLast point =>
      rw [point] at ticked
      obtain ⟨none, saw, found⟩ := ticked
      exact ⟨none.append (by simp [Failed]), ⟨_, rfl, saw.append (by simp)⟩, found.append _⟩
  | assignMap point =>
      rw [point] at ticked
      exact .inr (Published.append ticked rfl (by simp [Failed]) (by simp))

theorem tick_ticked {tick : List WatchLabel} {later : Watch} (sleeping : s.point = .sleeping)
    (inTick : .test ∉ tick) (goes : run (watchStep table) s tick = some later) :
    Ticked table s (history (watchStep table) s tick) later later.point := by
  refine run_induction_of_forall (fun past later => Ticked table s past later later.point)
    (fun _ label => label ≠ .test) ?_
    (fun _ _ _ _ ticked inTick taken => (watched_of_watchStep taken).ticked ticked inTick)
    (fun entry member isTest => inTick (isTest ▸ label_mem_of_mem_history member)) goes
  rw [sleeping]
  exact ⟨⟨rfl, rfl⟩, fun _ member => absurd member List.not_mem_nil,
    fun _ member => absurd member List.not_mem_nil⟩

/-- A tick with a failure leaves the map and `last` alone. -/
theorem unchanged_of_failed {tick : List WatchLabel} {later : Watch}
    (sleeping : s.point = .sleeping) (inTick : .test ∉ tick)
    (goes : run (watchStep table) s tick = some later)
    (failed : ∃ entry ∈ history (watchStep table) s tick, Failed table entry) :
    Unchanged s later := by
  have ticked := tick_ticked sleeping inTick goes
  have notNone : ¬ NoFailure table (history (watchStep table) s tick) := fun none =>
    have ⟨entry, member, fails⟩ := failed
    none entry member fails
  cases point : later.point <;> rw [point] at ticked
  case sleeping => exact ticked.1
  case load mtime => exact ticked.1
  case assignLast mtime newMap => exact absurd ticked.1 notNone
  case assignMap newMap => exact absurd ticked.1 notNone
  case boundary => exact (ticked.resolve_right fun published => notNone published.1).1
  case raised => exact ticked
  all_goals exact ticked.elim

/-- A tick without a failure that sees another time than `last` publishes. -/
theorem published_of_changed {tick : List WatchLabel} {later : Watch}
    (sleeping : s.point = .sleeping) (inTick : .test ∉ tick)
    (goes : run (watchStep table) s tick = some later) (ended : later.point = .boundary)
    (none : NoFailure table (history (watchStep table) s tick))
    {stat : Watch × WatchLabel} (member : stat ∈ history (watchStep table) s tick)
    (isStat : stat.2 = .stat true) (changed : stat.1.file.stat ≠ s.last) :
    later.last = stat.1.file.stat ∧
      Found table (history (watchStep table) s tick) later.dnsMap := by
  have ticked := tick_ticked sleeping inTick goes
  rw [ended] at ticked
  rcases ticked with ⟨-, saw⟩ | ⟨-, ⟨mtime, known, saw⟩, found⟩
  · exact absurd (saw none stat member isStat) changed
  · exact ⟨known.trans (saw stat member isStat).symm, found⟩

end Tick

/-! ## Hot reloading -/

/-- What hot reloading asks of a state of the watcher. -/
structure HotReloads (table : Str → Str) (s : Watch) : Prop where
  running : s.point ≠ .raised
  stopped_of_returned : s.point = .returned → s.stopped = true
  goesOn : s.point ≠ .returned → ∃ label next, label.Own ∧ watchStep table s label = some next
  keeps : ∀ tick later, s.point = .sleeping → .test ∉ tick →
    run (watchStep table) s tick = some later →
      (∃ entry ∈ history (watchStep table) s tick, Failed table entry) → Unchanged s later
  publishes : ∀ tick later, s.point = .sleeping → .test ∉ tick →
    run (watchStep table) s tick = some later → later.point = .boundary →
      (∀ entry ∈ history (watchStep table) s tick, ¬ Failed table entry) →
        ∀ stat ∈ history (watchStep table) s tick, stat.2 = .stat true →
          stat.1.file.stat ≠ s.last →
            later.last = stat.1.file.stat ∧
              ∃ load ∈ history (watchStep table) s tick, load.2 = .load true ∧
                load.1.current table = some later.dnsMap

variable {initial : Mapping} {labels : List WatchLabel} {s next : Watch} {label : WatchLabel}

/-- The watcher returns when it is stopped, and raises only on what is not UTF-8. -/
def Runs (s : Watch) : Prop :=
  s.point ≠ .raised ∧ (s.point = .returned → s.stopped = true)

theorem readsText_iff (table : Str → Str) {index : Nat} {content : Bytes}
    (reads : s.file.read = some (index, content)) :
    ReadsText s (.load true) ↔ (loadDnsMap table content).isSome = true := by
  obtain ⟨rfl, held⟩ := WatchedFile.held_of_read reads
  rw [ReadsText, WatchedFile.held_index_iff.mp held, Option.isSome_iff_ne_none, Ne,
    loadDnsMap_eq_none_iff]
  simp

theorem Watched.runs (watched : Watched table s label next) (runs : Runs s)
    (readsText : ReadsText s label) : Runs next := by
  cases watched with
  | change _ => exact runs
  | stop => exact ⟨runs.1, fun _ => rfl⟩
  | leave _ stopped => exact ⟨by simp, fun _ => stopped⟩
  | raise _ reads fails => exact absurd ((readsText_iff table reads).mp readsText) (by simp [fails])
  | _ => exact ⟨by simp, fun returned => by cases returned⟩

/-- A load of anything else raises. -/
theorem readsText_of_running (taken : watchStep table s label = some next)
    (running : next.point ≠ .raised) : ReadsText s label := by
  cases watched_of_watchStep taken with
  | initLoad _ reads loads | load _ reads loads =>
      exact (readsText_iff table reads).mpr (by rw [loads, Option.isSome_some])
  | raise _ _ _ => exact absurd rfl running
  | _ => exact trivial

theorem start_runs (initial : Mapping) : Runs (.start initial) :=
  ⟨by simp [Watch.start], fun returned => by cases returned⟩

theorem exists_own_step (running : s.point ≠ .raised) (more : s.point ≠ .returned) :
    ∃ label next, label.Own ∧ watchStep table s label = some next := by
  cases point : s.point with
  | initLoad | load _ => exact ⟨.load false, _, trivial, by
      simp only [watchStep, point]
      rfl⟩
  | initAssign _ | assignLast _ _ | assignMap _ =>
      exact ⟨.assign, _, trivial, by
      simp only [watchStep, point]
      rfl⟩
  | initStat | sleeping => exact ⟨.stat false, _, trivial, by
      simp only [watchStep, point]
      rfl⟩
  | boundary => exact ⟨.test, _, trivial, by
      simp only [watchStep, point]
      rfl⟩
  | returned => exact absurd point more
  | raised => exact absurd point running

theorem Runs.hotReloads (runs : Runs s) : HotReloads table s where
  running := runs.1
  stopped_of_returned := runs.2
  goesOn := exists_own_step runs.1
  keeps _ _ sleeping inTick goes failed := unchanged_of_failed sleeping inTick goes failed
  publishes _ _ sleeping inTick goes ended none _ member isStat changed :=
    published_of_changed sleeping inTick goes ended none member isStat changed

/-- In every run hot reloading goes on in every state exactly when every load
finds UTF-8. -/
theorem hotReloads_iff (runs : run (watchStep table) (.start initial) labels = some s) :
    (∀ front middle, front <+: labels →
        run (watchStep table) (.start initial) front = some middle → HotReloads table middle) ↔
      ∀ entry ∈ history (watchStep table) (.start initial) labels, ReadsText entry.1 entry.2 := by
  constructor
  · intro hotReloads entry member
    obtain ⟨front, next, isPrefix, taken, reaches⟩ := prefix_of_mem_history runs member
    exact readsText_of_running taken (hotReloads front next isPrefix reaches).running
  · intro readsText front middle isPrefix reaches
    have kept := run_invariant_of_forall Runs ReadsText (start_runs initial)
      (fun _ _ _ runs readsText taken => (watched_of_watchStep taken).runs runs readsText)
      (fun entry member => readsText entry (mem_history_mono isPrefix reaches member)) reaches
    exact kept.hotReloads

/-- The file is missing at first. -/
def writtenLater : List WatchLabel :=
  [.load false, .test, .stat false, .test, .change (.write [117, 32, 97] 1)]

theorem hotReloads_writtenLater :
    ∃ s, run (watchStep id) (.start ∅) writtenLater = some s ∧ s.point = .sleeping ∧
      HotReloads id s := by
  have runs : run (watchStep id) (.start ∅) writtenLater = some _ := rfl
  exact ⟨_, runs, rfl, (hotReloads_iff runs).mpr (by decide) writtenLater _ List.prefix_rfl runs⟩

/-- A byte that is not UTF-8 is in the file at one tick. -/
def badByte : List WatchLabel :=
  [.load false, .test, .change (.write [255] 1), .stat true, .load true]

/-- Then the watcher ends, though it was not stopped. -/
theorem raised_badByte :
    ∃ s, run (watchStep id) (.start ∅) badByte = some s ∧ s.stopped = false ∧
      s.point = .raised :=
  ⟨_, rfl, rfl, rfl⟩

end TailcatSocks.Python
