import TailcatSocks.Library.Readers
import TailcatSocks.Python.Answered
import TailcatSocks.Python.Watch

/-!
# Connections under a watched file, in Python

The watcher thread and any number of `_handle` threads on one `proxy.dns_map`.
A connection looks at `self.dns_map` once and works on its own sockets before
and after; so it stands here as one step.  The watcher does not say which
content its map is of; `Recorded` keeps this beside it and changes nothing.
-/

namespace TailcatSocks.Python

open Library Socks

structure Recorded where
  watch : Watch
  /-- The index of the content that was loaded last. -/
  loaded : Nat
  /-- The indices of those whose map was assigned to `proxy.dns_map`. -/
  assigned : List Nat

/-- The next assignment is one to `proxy.dns_map`. -/
def Point.assigns : Point → Bool
  | .initAssign _ | .assignMap _ => true
  | _ => false

def recordedStep (table : Str → Str) (s : Recorded) (label : WatchLabel) : Option Recorded :=
  (watchStep table s.watch label).map fun watch =>
    { watch
      loaded := if label = .load true then s.watch.file.index else s.loaded
      assigned :=
        if label = .assign ∧ s.watch.point.assigns = true then s.assigned ++ [s.loaded]
        else s.assigned }

def startRecorded (initial : Mapping) : Recorded := ⟨.start initial, 0, []⟩

variable {table : Str → Str} {initial map : Mapping}

/-- The record takes nothing from the watcher and adds nothing to it. -/
theorem run_recorded_iff {s : Recorded} {watch : Watch} {labels : List WatchLabel} :
    (∃ later, run (recordedStep table) s labels = some later ∧ later.watch = watch) ↔
      run (watchStep table) s.watch labels = some watch := by
  induction labels generalizing s with
  | nil => simp [run_nil]
  | cons label labels ih =>
      cases taken : watchStep table s.watch label with
      | none => simp [run, recordedStep, taken]
      | some next =>
          rw [run_cons_of_step labels taken, ← ih (s := ⟨next, _, _⟩)]
          rw [run_cons_of_step labels (Option.map_eq_some_iff.mpr ⟨next, taken, rfl⟩)]

/-! ## What is recorded -/

/-- The mapping is that of the content with this index. -/
def IsOf (table : Str → Str) (file : WatchedFile Bytes) (index : Nat) (map : Mapping) : Prop :=
  ∃ content, file.Held index content ∧ loadDnsMap table content = some map

/-- The mapping of a version: of the content with this index, or the one before any. -/
def IsVersion (table : Str → Str) (initial : Mapping) (file : WatchedFile Bytes) (map : Mapping) :
    Option Nat → Prop
  | none => map = initial
  | some index => IsOf table file index map

/-- The map that is about to be assigned is that of the content loaded last. -/
def Pending (table : Str → Str) (file : WatchedFile Bytes) (loaded : Nat) : Point → Prop
  | .initAssign newMap | .assignLast _ newMap | .assignMap newMap => IsOf table file loaded newMap
  | _ => True

structure Traced (table : Str → Str) (initial : Mapping) (s : Recorded) : Prop where
  bounded : s.loaded ≤ s.watch.file.index
  ordered : s.assigned.Pairwise (· ≤ ·)
  behind : ∀ index ∈ s.assigned, index ≤ s.loaded
  current : IsVersion table initial s.watch.file s.watch.dnsMap s.assigned.getLast?
  pending : Pending table s.watch.file s.loaded s.watch.point

theorem start_traced (table : Str → Str) (initial : Mapping) :
    Traced table initial (startRecorded initial) where
  bounded := Nat.le_refl _
  ordered := .nil
  behind _ member := absurd member List.not_mem_nil
  current := rfl
  pending := trivial

theorem IsOf.mono {file next : WatchedFile Bytes} {index : Nat} (isOf : IsOf table file index map)
    (ext : file.Extends next) : IsOf table next index map := by
  obtain ⟨content, held, parsed⟩ := isOf
  exact ⟨content, ext.held held, parsed⟩

theorem IsVersion.mono {file next : WatchedFile Bytes} {version : Option Nat}
    (isVersion : IsVersion table initial file map version) (ext : file.Extends next) :
    IsVersion table initial next map version := by
  cases version with
  | none => exact isVersion
  | some index => exact IsOf.mono isVersion ext

theorem Pending.mono {file next : WatchedFile Bytes} {loaded : Nat} {point : Point}
    (pending : Pending table file loaded point) (ext : file.Extends next) :
    Pending table next loaded point := by
  cases point with
  | initAssign _ | assignLast _ _ | assignMap _ => exact IsOf.mono pending ext
  | _ => exact trivial

/-- A load is of the current content. -/
theorem Traced.load {s : Recorded} (traced : Traced table initial s) {point : Point}
    (pending : Pending table s.watch.file s.watch.file.index point) :
    Traced table initial ⟨{ s.watch with point }, s.watch.file.index, s.assigned⟩ where
  bounded := Nat.le_refl _
  ordered := traced.ordered
  behind index member := Nat.le_trans (traced.behind index member) traced.bounded
  current := traced.current
  pending := pending

theorem isOf_of_read {file : WatchedFile Bytes} {index : Nat} {content : Bytes}
    {newMap : Mapping} (reads : file.read = some (index, content))
    (parses : loadDnsMap table content = some newMap) : IsOf table file file.index newMap := by
  obtain ⟨rfl, held⟩ := WatchedFile.held_of_read reads
  exact ⟨content, held, parses⟩

/-- What was loaded last becomes the map. -/
theorem Traced.assign {s : Recorded} (traced : Traced table initial s) {newMap : Mapping}
    {point : Point} (isOf : IsOf table s.watch.file s.loaded newMap)
    (pending : Pending table s.watch.file s.loaded point) :
    Traced table initial
      ⟨{ s.watch with point, dnsMap := newMap }, s.loaded, s.assigned ++ [s.loaded]⟩ where
  bounded := traced.bounded
  ordered := by
    refine List.pairwise_append.mpr ⟨traced.ordered, List.pairwise_singleton _ _, ?_⟩
    intro index member last isLast
    rw [List.mem_singleton.mp isLast]
    exact traced.behind index member
  behind index member := by
    rcases List.mem_append.mp member with member | isLast
    · exact traced.behind index member
    · exact Nat.le_of_eq (List.mem_singleton.mp isLast)
  current := by
    rw [List.getLast?_concat]
    exact isOf
  pending := pending

/-- Neither a load nor an assignment to the map. -/
theorem Traced.move {s : Recorded} (traced : Traced table initial s) {watch : Watch}
    (file : watch.file = s.watch.file) (map : watch.dnsMap = s.watch.dnsMap)
    (pending : Pending table s.watch.file s.loaded watch.point) :
    Traced table initial ⟨watch, s.loaded, s.assigned⟩ where
  bounded := by
    rw [file]
    exact traced.bounded
  ordered := traced.ordered
  behind := traced.behind
  current := by
    rw [file, map]
    exact traced.current
  pending := by
    rw [file]
    exact pending

theorem Traced.step {s next : Recorded} {label : WatchLabel} (traced : Traced table initial s)
    (taken : recordedStep table s label = some next) : Traced table initial next := by
  obtain ⟨watch, steps, rfl⟩ := Option.map_eq_some_iff.mp taken
  have pending := traced.pending
  cases watched_of_watchStep steps with
  | change changed =>
      have ext := WatchedFile.change_extends changed
      exact ⟨Nat.le_trans traced.bounded ext.index_le, traced.ordered, traced.behind,
        traced.current.mono ext, pending.mono ext⟩
  | stop => exact traced.move rfl rfl pending
  | leave _ _ | sleep _ _ | initStat _ _ | initStatFails _ | unchanged _ _ _ | changed _ _ _
  | statFails _ | initLoadFails _ | loadFails _ => exact traced.move rfl rfl trivial
  | initLoad _ reads parses | load _ reads parses => exact traced.load (isOf_of_read reads parses)
  | raise _ _ _ => exact traced.load trivial
  | initAssign here =>
      rw [here] at pending
      rw [here]
      exact traced.assign pending trivial
  | assignLast here =>
      rw [here] at pending
      rw [here]
      exact traced.move rfl rfl pending
  | assignMap here =>
      rw [here] at pending
      rw [here]
      exact traced.assign pending trivial

theorem run_traced {s : Recorded} {labels : List WatchLabel}
    (runs : run (recordedStep table) (startRecorded initial) labels = some s) :
    Traced table initial s :=
  run_invariant (Traced table initial) (start_traced table initial)
    (fun _ _ _ traced taken => traced.step taken) runs

theorem run_extends {s later : Recorded} {labels : List WatchLabel}
    (runs : run (recordedStep table) s labels = some later) :
    s.watch.file.Extends later.watch.file := by
  refine run_invariant (fun state => s.watch.file.Extends state.watch.file)
    ⟨List.prefix_refl _, fun stamped => stamped⟩ ?_ runs
  intro state label next ext taken
  obtain ⟨watch, steps, rfl⟩ := Option.map_eq_some_iff.mp taken
  cases watched_of_watchStep steps with
  | change changed =>
      have more := WatchedFile.change_extends changed
      exact ⟨ext.contents.trans more.contents, fun stamped => more.stamps (ext.stamps stamped)⟩
  | _ => exact ext

theorem publishes_recordedStep : Publishes (recordedStep table) Recorded.assigned := by
  intro s label next taken
  obtain ⟨watch, -, rfl⟩ := Option.map_eq_some_iff.mp taken
  dsimp only
  split
  · exact .inr ⟨s.loaded, rfl⟩
  · exact .inl rfl

/-! ## The order of the connections -/

abbrev Serving : Type := Readers Recorded (World × Served × World)

abbrev ServingLabel : Type := ReadersLabel WatchLabel World

def serveUnder (inet : Inet) (table : Str → Str) (s : Recorded) (w : World) :
    World × Served × World := (w, handle inet table s.watch.dnsMap w)

def servingStep (inet : Inet) (table : Str → Str) : Serving → ServingLabel → Option Serving :=
  readersStep (recordedStep table) (serveUnder inet table)

def startServing (initial : Mapping) : Serving := ⟨startRecorded initial, []⟩

/-- However `watch_dns_file`, changes of the file and connections interleave, and
even after the watcher has died of a file that does not decode, each connection
is served under one version of the file, and none under an older version than
one before it. -/
theorem python_serves_in_order (inet : Inet) {labels : List ServingLabel} {s : Serving}
    (runs : run (servingStep inet table) (startServing initial) labels = some s) :
    run (watchStep table) (.start initial) (ownLabels labels) = some s.publisher.watch ∧
    (seen Recorded.assigned
        (history (servingStep inet table) (startServing initial) labels)).Pairwise NotNewer ∧
      List.Forall₂ (fun version entry => ∃ map,
        IsVersion table initial s.publisher.watch.file map version ∧
          entry.2 = handle inet table map entry.1)
        (seen Recorded.assigned (history (servingStep inet table) (startServing initial) labels))
        s.answered := by
  refine ⟨run_recorded_iff.mp ⟨s.publisher, run_own runs, rfl⟩, ?_, ?_⟩
  · exact seen_of_published publishes_recordedStep runs (run_traced (run_own runs)).ordered
  · refine forall₂_seen runs fun state w front rest before after =>
      ⟨state.watch.dnsMap, ?_, rfl⟩
    exact (run_traced before).current.mono (run_extends after)

/-- A client that asks for `d:80`, and an upstream that grants it. -/
def askForD : World :=
  .start [5, 1, 0, 5, 1, 0, 3, 1, 100, 0, 80] none
    (.ofBytes [5, 0, 5, 0, 0, 1, 0, 0, 0, 0, 0, 0])

/-- A connection before the first load, one after it, and one after the load of
a file that does not decode. -/
def aroundLoads : List ServingLabel :=
  [.look askForD, .own (.change (.write [116, 32, 100, 10] 5)), .own (.load true), .own .assign,
    .look askForD, .own (.stat true), .own .test, .own (.change (.write [255] 6)),
    .own (.stat true), .own (.load true), .look askForD]

theorem python_serves_in_order_aroundLoads :
    ∃ s, run (servingStep standardInet id) (startServing ∅) aroundLoads = some s ∧
      run (watchStep id) (.start ∅) (ownLabels aroundLoads) = some s.publisher.watch ∧
      [none, some 0, some 0].Pairwise NotNewer ∧
      List.Forall₂ (fun version entry => ∃ map,
        IsVersion id ∅ s.publisher.watch.file map version ∧
          entry.2 = handle standardInet id map entry.1)
        [none, some 0, some 0] s.answered := by
  have runs : run (servingStep standardInet id) (startServing ∅) aroundLoads = some _ := rfl
  exact ⟨_, runs, python_serves_in_order standardInet runs⟩

end TailcatSocks.Python
