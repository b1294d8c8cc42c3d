import TailcatSocks.Library.Readers
import TailcatSocks.Go.Proxy
import TailcatSocks.Go.Watch

/-!
# Connections under a watched file, in Go

The watcher with its reloads, and any number of connection goroutines on one
`DNSMap`.  A connection looks at the map once, with `s.DNSMap.Load()`, and works
on its own sockets before and after; so it stands here as one step.
-/

namespace TailcatSocks.Go

open Library Socks

/-- The watcher, and what became of the connections, in the order of their looks at the map. -/
abbrev Serving : Type := Readers Watch (World × Served × World)

abbrev ServingLabel : Type := ReadersLabel WatchLabel World

def serveUnder (lower : Nat → Nat) (s : Watch) (w : World) : World × Served × World :=
  (w, handle lower s.map w)

def servingStep (lower : Nat → Nat) : Serving → ServingLabel → Option Serving :=
  readersStep (watchStep lower) (serveUnder lower)

def startServing (initial : Mapping) (content : Bytes) : Serving := ⟨.start initial content, []⟩

/-! ## Versions of the file -/

/-- The mapping of a version: of the content with this index, or the one before any. -/
def IsVersion (lower : Nat → Nat) (initial : Mapping) (s : Watch) (map : Mapping) :
    Option Nat → Prop
  | none => map = initial
  | some index => ∃ content, s.Held index content ∧ map = loadDNSFile lower content

/-- The versions that the watcher and its reloads have stored. -/
def Watch.versions (s : Watch) : List Nat := s.published.map Prod.fst

variable {lower : Nat → Nat} {initial map : Mapping} {content : Bytes}

theorem Consistent.isVersion {s : Watch} (consistent : Consistent lower initial s) :
    IsVersion lower initial s s.map s.versions.getLast? := by
  rw [consistent.latest, Watch.versions, List.getLast?_map]
  cases last : s.published.getLast? with
  | none => exact rfl
  | some entry => exact consistent.parsed entry (List.mem_of_getLast? last)

theorem publishes_watchStep : Publishes (watchStep lower) Watch.versions := by
  intro s label next taken
  cases watched_of_watchStep taken with
  | initStore _ | store _ => exact .inr ⟨_, List.map_append⟩
  | _ => exact .inl rfl

theorem run_consistent {labels : List WatchLabel} {s : Watch}
    (runs : run (watchStep lower) (.start initial content) labels = some s) :
    Consistent lower initial s :=
  run_invariant (Consistent lower initial) (start_consistent lower initial content)
    (fun _ _ _ consistent taken => consistent.step (watched_of_watchStep taken)) runs

/-- Contents are only added. -/
theorem run_contents {s later : Watch} {labels : List WatchLabel}
    (runs : run (watchStep lower) s labels = some later) : s.contents <+: later.contents := by
  refine run_invariant (fun state => s.contents <+: state.contents) (List.prefix_refl _) ?_ runs
  intro state label next goesOn taken
  cases watched_of_watchStep taken with
  | write _ _ | replace => exact goesOn.trans (List.prefix_append _ _)
  | _ => exact goesOn

theorem IsVersion.mono {s later : Watch} {version : Option Nat}
    (isVersion : IsVersion lower initial s map version) (more : s.contents <+: later.contents) :
    IsVersion lower initial later map version := by
  cases version with
  | none => exact isVersion
  | some index =>
      obtain ⟨content, held, parsed⟩ := isVersion
      obtain ⟨added, whole⟩ := more
      refine ⟨content, ?_, parsed⟩
      have inside := (List.getElem?_eq_some_iff.mp held).1
      rw [Watch.Held, ← whole, List.getElem?_append_left inside]
      exact held

/-! ## The order of the connections -/

/-- Each connection is served from its first byte to its relay under one version
of the file.  Wherever connections come, none is served under an older version
than one before it, exactly when no older version is stored after a newer one. -/
theorem serves_in_order_iff {labels : List WatchLabel} {s : Watch}
    (runs : run (watchStep lower) (.start initial content) labels = some s) :
    (∀ more t, run (servingStep lower) (startServing initial content) more = some t →
      ownLabels more = labels →
      List.Forall₂ (fun version entry => ∃ map,
        IsVersion lower initial t.publisher map version ∧ entry.2 = handle lower map entry.1)
        (seen Watch.versions (history (servingStep lower) (startServing initial content) more))
        t.answered) ∧
    ((∀ more t, run (servingStep lower) (startServing initial content) more = some t →
        ownLabels more = labels →
        (seen Watch.versions
          (history (servingStep lower) (startServing initial content) more)).Pairwise NotNewer) ↔
      s.published.Pairwise fun entry later => entry.1 ≤ later.1) := by
  constructor
  · intro more t goes _
    refine forall₂_seen goes fun state w front rest before after => ⟨state.map, ?_, rfl⟩
    exact (run_consistent before).isVersion.mono (run_contents after)
  · have exactly := published_inOrder_iff (serveUnder lower) publishes_watchStep rfl
      (World.start [] none (.ofBytes [])) runs
    exact exactly.trans List.pairwise_map

/-- The second of two edits is stored before the first one, and there are
connections that see it so. -/
theorem serves_in_order_iff_editTwice :
    ¬ ∀ more t, run (servingStep id) (startServing ∅ [116, 32, 97]) more = some t →
      ownLabels more = editTwice →
      (seen Watch.versions
        (history (servingStep id) (startServing ∅ [116, 32, 97]) more)).Pairwise NotNewer := by
  have runs : run (watchStep id) (.start ∅ [116, 32, 97]) editTwice = some _ := rfl
  exact fun inOrder => absurd ((serves_in_order_iff runs).2.mp inOrder) (by decide)

end TailcatSocks.Go
