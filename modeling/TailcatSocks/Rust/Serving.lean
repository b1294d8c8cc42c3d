import TailcatSocks.Library.Readers
import TailcatSocks.Rust.Proxy
import TailcatSocks.Rust.Watch

/-!
# Connections under a watched file

The watcher and any number of connection tasks on one `DnsMap`.  A task looks at
the map once, with `self.dns_map.load()`, and works on its own sockets before
and after; so it stands here as one step, taken where it looks.
-/

namespace TailcatSocks.Rust

open Library Socks

/-- The watcher, and what became of the connections, in the order of their looks at the map. -/
abbrev Serving : Type := Readers Watch (World × Served × World)

abbrev ServingLabel : Type := ReadersLabel WatchLabel World

def serveUnder (s : Watch) (w : World) : World × Served × World := (w, handle s.map w)

def servingStep : Serving → ServingLabel → Option Serving := readersStep watchStep serveUnder

def startServing (initial : Mapping) : Serving := ⟨.start initial, []⟩

/-! ## Versions of the file -/

/-- The mapping of a version: of the content with this index, or the one before any. -/
def IsVersion (initial : Mapping) (file : WatchedFile Bytes) (map : Mapping) : Option Nat → Prop
  | none => map = initial
  | some index => ∃ content, file.Held index content ∧ map = parseDns content

/-- The versions that the watcher has stored. -/
def Watch.versions (s : Watch) : List Nat := s.published.map Prod.fst

variable {initial map : Mapping}

theorem IsVersion.mono {file next : WatchedFile Bytes} {version : Option Nat}
    (isVersion : IsVersion initial file map version) (ext : file.Extends next) :
    IsVersion initial next map version := by
  cases version with
  | none => exact isVersion
  | some index =>
      obtain ⟨content, held, parsed⟩ := isVersion
      exact ⟨content, ext.held held, parsed⟩

theorem Consistent.isVersion {s : Watch} (consistent : Consistent initial s) :
    IsVersion initial s.file s.map s.versions.getLast? := by
  rw [consistent.latest, Watch.versions, List.getLast?_map]
  cases last : s.published.getLast? with
  | none => exact rfl
  | some entry => exact consistent.parsed entry (List.mem_of_getLast? last)

theorem publishes_watchStep : Publishes watchStep Watch.versions := by
  intro s label next taken
  cases watched_of_watchStep taken with
  | initStore _ | store _ => exact .inr ⟨_, List.map_append⟩
  | _ => exact .inl rfl

theorem extends_refl (file : WatchedFile Bytes) : file.Extends file :=
  ⟨List.prefix_refl _, fun stamped => stamped⟩

theorem Watched.extends {s next : Watch} {label : WatchLabel} (watched : Watched s label next) :
    s.file.Extends next.file := by
  cases watched with
  | change changed => exact WatchedFile.change_extends changed
  | _ => exact extends_refl _

theorem run_extends {s later : Watch} {labels : List WatchLabel}
    (runs : run watchStep s labels = some later) : s.file.Extends later.file := by
  refine run_invariant (fun state => s.file.Extends state.file) (extends_refl _) ?_ runs
  intro state label next ext taken
  have more := (watched_of_watchStep taken).extends
  exact ⟨ext.contents.trans more.contents, fun stamped => more.stamps (ext.stamps stamped)⟩

/-! ## The order of the connections -/

/-- However the watcher, changes of the file and connections interleave, each
connection is served from its first byte to its relay under one version of the
file, and none under an older version than one before it. -/
theorem serves_in_order {labels : List ServingLabel} {s : Serving}
    (runs : run servingStep (startServing initial) labels = some s) :
    (seen Watch.versions (history servingStep (startServing initial) labels)).Pairwise NotNewer ∧
      List.Forall₂ (fun version entry => ∃ map,
        IsVersion initial s.publisher.file map version ∧ entry.2 = handle map entry.1)
        (seen Watch.versions (history servingStep (startServing initial) labels)) s.answered := by
  constructor
  · refine seen_of_published publishes_watchStep runs ?_
    exact List.pairwise_map.mpr (run_consistent (run_own runs)).ordered
  · refine forall₂_seen runs fun state w front rest before after => ⟨state.map, ?_, rfl⟩
    exact (run_consistent before).isVersion.mono (run_extends after)

/-- A client that asks for `d:80`, and an upstream that grants it. -/
def askForD : World :=
  .start [5, 1, 0, 5, 1, 0, 3, 1, 100, 0, 80] none
    (.ofBytes [5, 0, 5, 0, 0, 1, 0, 0, 0, 0, 0, 0])

/-- A connection before the first load, and one after it. -/
def aroundLoad : List ServingLabel :=
  [.look askForD, .own (.change (.write [116, 32, 100, 10] 5)), .own (.stat true),
    .own (.load true), .own .store, .look askForD]

theorem serves_in_order_aroundLoad :
    ∃ s, run servingStep (startServing ∅) aroundLoad = some s ∧
      [none, some 0].Pairwise NotNewer ∧
      List.Forall₂ (fun version entry => ∃ map,
        IsVersion ∅ s.publisher.file map version ∧ entry.2 = handle map entry.1)
        [none, some 0] s.answered := by
  have runs : run servingStep (startServing ∅) aroundLoad = some _ := rfl
  exact ⟨_, runs, serves_in_order runs⟩

end TailcatSocks.Rust
