import TailcatSocks.Library.Runs
import TailcatSocks.Go.DnsMap

/-!
# The Go file watcher

`WatchDNSFile` handles one event after another, while every debounce timer that
fires runs `reload` on a goroutine of its own.  A reload reads the file in one
step and stores the mapping in another, and nothing orders the stores of two
reloads.  A label is one such step, or one change of the file by others with
what fsnotify makes of it.
-/

namespace TailcatSocks.Go

open Library

/-- What the loop tells apart among the operations of an event. -/
inductive Event where
  | write
  | create
  /-- Chmod, Remove or Rename. -/
  | other
  deriving DecidableEq, Repr

inductive WatchPoint where
  | initLoad
  | initStore (index : Nat) (content : Bytes)
  | loop
  | returned
  deriving DecidableEq, Repr

structure Watch where
  /-- Every content so far of the file at `path`, the current one last. -/
  contents : List Bytes
  /-- The file at `path`. -/
  inode : Nat
  watched : Option Nat
  /-- `watcher.Events`, the next one first. -/
  events : List Event
  point : WatchPoint
  /-- The `debounce` timer runs. -/
  debounce : Bool
  /-- Reloads that did not read yet. -/
  starting : Nat
  /-- Reloads that have read and did not store yet. -/
  loaded : List (Nat × Bytes)
  /-- The index of the content of the last read, if it succeeded. -/
  lastRead : Option Nat
  map : Mapping
  /-- What was stored so far, with the index of the content it came from. -/
  published : List (Nat × Mapping)

inductive WatchLabel where
  /-- A write in place; its event may be merged with an equal one that waits. -/
  | write (content : Bytes) (merged : Bool)
  /-- Another file is renamed to `path`. -/
  | replace (content : Bytes)
  | initLoad (succeeds : Bool)
  | initStore
  | handle
  /-- The debounce timer fires. -/
  | expire
  | read (succeeds : Bool)
  | store (index : Nat) (content : Bytes)
  | cancel
  deriving DecidableEq, Repr

/-- The index of the current content. -/
def Watch.index (s : Watch) : Nat := s.contents.length - 1

/-- `m.Store(..)`. -/
def Watch.publish (lower : Nat → Nat) (s : Watch) (index : Nat) (content : Bytes) : Watch :=
  { s with
    map := loadDNSFile lower content
    published := s.published ++ [(index, loadDNSFile lower content)] }

/-- `LoadDNSFile` reads the file: the content with its index. -/
def Watch.read (s : Watch) : Option (Nat × Bytes) :=
  s.contents.getLast?.map fun content => (s.index, content)

def watchStep (lower : Nat → Nat) (s : Watch) : WatchLabel → Option Watch
  | .write content merged =>
      if s.watched = some s.inode then
        if merged then
          if s.events.getLast? = some .write then
            some { s with contents := s.contents ++ [content] }
          else none
        else some { s with contents := s.contents ++ [content], events := s.events ++ [.write] }
      else some { s with contents := s.contents ++ [content] }
  | .replace content =>
      if s.watched = some s.inode then
        some { s with
          contents := s.contents ++ [content]
          inode := s.inode + 1
          watched := none
          events := s.events ++ [.other] }
      else some { s with contents := s.contents ++ [content], inode := s.inode + 1 }
  | .initLoad succeeds =>
      match s.point, succeeds, s.read with
      | .initLoad, true, some (index, content) =>
          some { s with point := .initStore index content, lastRead := some index }
      | .initLoad, false, _ => some { s with point := .loop, lastRead := none }
      | _, _, _ => none
  | .initStore =>
      match s.point with
      | .initStore index content => some { s.publish lower index content with point := .loop }
      | _ => none
  | .handle =>
      match s.point, s.events with
      | .loop, event :: events =>
          if event = .write ∨ event = .create then
            -- `rearm`, and a new timer in place of the one that may run
            some { s with events, watched := some s.inode, debounce := true }
          else some { s with events }
      | _, _ => none
  | .expire =>
      if s.debounce then some { s with debounce := false, starting := s.starting + 1 } else none
  | .read succeeds =>
      match s.starting, succeeds, s.read with
      | starting + 1, true, some (index, content) =>
          some { s with starting, loaded := s.loaded ++ [(index, content)], lastRead := some index }
      | starting + 1, false, _ => some { s with starting, lastRead := none }
      | _, _, _ => none
  | .store index content =>
      if (index, content) ∈ s.loaded then
        some { s.publish lower index content with loaded := s.loaded.erase (index, content) }
      else none
  | .cancel =>
      match s.point with
      -- the deferred `debounce.Stop()`
      | .loop => some { s with point := .returned, debounce := false }
      | _ => none

/-- `WatchDNSFile` has added `path`, which holds `content`, to its watcher. -/
def Watch.start (initial : Mapping) (content : Bytes) : Watch where
  contents := [content]
  inode := 0
  watched := some 0
  events := []
  point := .initLoad
  debounce := false
  starting := 0
  loaded := []
  lastRead := none
  map := initial
  published := []

/-- Nothing is under way, and the last read succeeded. -/
def Watch.Quiescent (s : Watch) : Prop :=
  s.point = .loop ∧ s.events = [] ∧ s.debounce = false ∧ s.starting = 0 ∧ s.loaded = [] ∧
    s.lastRead.isSome = true

instance (s : Watch) : Decidable s.Quiescent :=
  inferInstanceAs (Decidable (s.point = .loop ∧ s.events = [] ∧ s.debounce = false ∧
    s.starting = 0 ∧ s.loaded = [] ∧ s.lastRead.isSome = true))

/-- No reload stores while another one that has read an older content has still
to store. -/
def InOrder (s : Watch) : WatchLabel → Prop
  | .store index _ => ∀ other ∈ s.loaded, index ≤ other.1
  | _ => True

instance (s : Watch) (label : WatchLabel) : Decidable (InOrder s label) := by
  cases label <;> unfold InOrder <;> infer_instance

/-! ## What a step can do -/

inductive Watched (lower : Nat → Nat) (s : Watch) : WatchLabel → Watch → Prop where
  | write {content : Bytes} {merged : Bool} {events : List Event} :
      (∀ event ∈ s.events, event ∈ events) →
      (s.watched = some s.inode → .write ∈ events) →
      Watched lower s (.write content merged)
        { s with contents := s.contents ++ [content], events }
  | replace {content : Bytes} {inode : Nat} {watched : Option Nat} {events : List Event} :
      Watched lower s (.replace content)
        { s with contents := s.contents ++ [content], inode, watched, events }
  | initLoad {index : Nat} {content : Bytes} : s.point = .initLoad →
      s.read = some (index, content) →
      Watched lower s (.initLoad true)
        { s with point := .initStore index content, lastRead := some index }
  | initLoadFails : s.point = .initLoad →
      Watched lower s (.initLoad false) { s with point := .loop, lastRead := none }
  | initStore {index : Nat} {content : Bytes} : s.point = .initStore index content →
      Watched lower s .initStore { s.publish lower index content with point := .loop }
  | handle {event : Event} {events : List Event} : s.point = .loop →
      s.events = event :: events → event = .write ∨ event = .create →
      Watched lower s .handle { s with events, watched := some s.inode, debounce := true }
  | ignore {event : Event} {events : List Event} : s.point = .loop →
      s.events = event :: events → ¬ (event = .write ∨ event = .create) →
      Watched lower s .handle { s with events }
  | expire : s.debounce = true →
      Watched lower s .expire { s with debounce := false, starting := s.starting + 1 }
  | read {starting index : Nat} {content : Bytes} : s.starting = starting + 1 →
      s.read = some (index, content) →
      Watched lower s (.read true)
        { s with starting, loaded := s.loaded ++ [(index, content)], lastRead := some index }
  | readFails {starting : Nat} : s.starting = starting + 1 →
      Watched lower s (.read false) { s with starting, lastRead := none }
  | store {index : Nat} {content : Bytes} : (index, content) ∈ s.loaded →
      Watched lower s (.store index content)
        { s.publish lower index content with loaded := s.loaded.erase (index, content) }
  | cancel : s.point = .loop →
      Watched lower s .cancel { s with point := .returned, debounce := false }

theorem watched_of_watchStep {lower : Nat → Nat} {s next : Watch} {label : WatchLabel}
    (taken : watchStep lower s label = some next) : Watched lower s label next := by
  cases label with
  | write content merged =>
      simp only [watchStep] at taken
      split at taken
      · split at taken
        · split at taken <;> cases taken
          next waiting =>
          exact .write (fun _ member => member) fun _ => List.mem_of_getLast? waiting
        · cases taken
          exact .write (fun _ member => List.mem_append_left _ member)
            fun _ => List.mem_append_right _ (List.mem_singleton_self _)
      · cases taken
        exact .write (fun _ member => member) fun watched => absurd watched ‹_›
  | replace content =>
      simp only [watchStep] at taken
      split at taken <;> cases taken
      · exact .replace
      · exact .replace
  | initLoad succeeds =>
      simp only [watchStep] at taken
      split at taken <;> cases taken
      · exact .initLoad ‹_› ‹_›
      · exact .initLoadFails ‹_›
  | initStore =>
      simp only [watchStep] at taken
      split at taken <;> cases taken
      exact .initStore ‹_›
  | handle =>
      simp only [watchStep] at taken
      split at taken
      · split at taken <;> cases taken
        · exact .handle ‹_› ‹_› ‹_›
        · exact .ignore ‹_› ‹_› ‹_›
      · cases taken
  | expire =>
      simp only [watchStep] at taken
      split at taken <;> cases taken
      exact .expire ‹_›
  | read succeeds =>
      simp only [watchStep] at taken
      split at taken <;> cases taken
      · exact .read ‹_› ‹_›
      · exact .readFails ‹_›
  | store index content =>
      simp only [watchStep] at taken
      split at taken <;> cases taken
      exact .store ‹_›
  | cancel =>
      simp only [watchStep] at taken
      split at taken <;> cases taken
      exact .cancel ‹_›

/-! ## What every interleaving keeps -/

/-- The content was at `path`, with this index. -/
def Watch.Held (s : Watch) (index : Nat) (content : Bytes) : Prop :=
  s.contents[index]? = some content

theorem Watch.held_le {s : Watch} {index : Nat} {content : Bytes} (held : s.Held index content) :
    index ≤ s.index :=
  Nat.le_sub_one_of_lt (List.getElem?_eq_some_iff.mp held).1

theorem Watch.held_of_read {s : Watch} {index : Nat} {content : Bytes}
    (reads : s.read = some (index, content)) : index = s.index ∧ s.Held index content := by
  obtain ⟨last, isLast, same⟩ := Option.map_eq_some_iff.mp reads
  cases same
  refine ⟨rfl, ?_⟩
  rw [Watch.Held, Watch.index, ← List.getLast?_eq_getElem?]
  exact isLast

/-- Every mapping comes from a content that was at `path`. -/
structure Consistent (lower : Nat → Nat) (initial : Mapping) (s : Watch) : Prop where
  latest : s.map = (s.published.getLast?.map Prod.snd).getD initial
  parsed : ∀ entry ∈ s.published, ∃ content, s.Held entry.1 content ∧
    entry.2 = loadDNSFile lower content
  initial : ∀ index content, s.point = .initStore index content → s.Held index content
  loaded : ∀ reload ∈ s.loaded, s.Held reload.1 reload.2

theorem start_consistent (lower : Nat → Nat) (initial : Mapping) (content : Bytes) :
    Consistent lower initial (.start initial content) where
  latest := rfl
  parsed _ member := absurd member List.not_mem_nil
  initial index content point := by cases point
  loaded _ member := absurd member List.not_mem_nil

theorem held_append {contents : List Bytes} {index : Nat} {content new : Bytes}
    (held : contents[index]? = some content) : (contents ++ [new])[index]? = some content := by
  rw [List.getElem?_append_left (List.getElem?_eq_some_iff.mp held).1]
  exact held

/-- A change of the file forgets no content. -/
theorem Consistent.change {lower : Nat → Nat} {initial : Mapping} {s : Watch}
    (consistent : Consistent lower initial s) {new : Bytes} {inode : Nat} {watched : Option Nat}
    {events : List Event} :
    Consistent lower initial
      { s with contents := s.contents ++ [new], inode, watched, events } where
  latest := consistent.latest
  parsed entry member := by
    obtain ⟨content, held, same⟩ := consistent.parsed entry member
    exact ⟨content, held_append held, same⟩
  initial index content point := held_append (consistent.initial index content point)
  loaded reload member := held_append (consistent.loaded reload member)

theorem Consistent.publish {lower : Nat → Nat} {initial : Mapping} {s : Watch}
    (consistent : Consistent lower initial s) {index : Nat} {content : Bytes}
    (held : s.Held index content) : Consistent lower initial (s.publish lower index content) where
  latest := by simp [Watch.publish]
  parsed entry member := by
    rcases List.mem_append.mp member with member | member
    · exact consistent.parsed entry member
    · cases List.mem_singleton.mp member
      exact ⟨content, held, rfl⟩
  initial := consistent.initial
  loaded := consistent.loaded

theorem Consistent.step {lower : Nat → Nat} {initial : Mapping} {s next : Watch}
    {label : WatchLabel} (consistent : Consistent lower initial s)
    (watched : Watched lower s label next) : Consistent lower initial next := by
  obtain ⟨latest, parsed, atInit, loaded⟩ := consistent
  cases watched with
  | write _ _ | replace => exact Consistent.change ⟨latest, parsed, atInit, loaded⟩
  | initLoad _ reads =>
      refine ⟨latest, parsed, fun index content point => ?_, loaded⟩
      cases point
      exact (Watch.held_of_read reads).2
  | initLoadFails _ => exact ⟨latest, parsed, fun _ _ point => (by cases point), loaded⟩
  | initStore point =>
      obtain ⟨latest, parsed, -, loaded⟩ := Consistent.publish ⟨latest, parsed, atInit, loaded⟩
        (atInit _ _ point)
      exact ⟨latest, parsed, fun _ _ point => (by cases point), loaded⟩
  | handle _ _ _ | ignore _ _ _ | expire _ => exact ⟨latest, parsed, atInit, loaded⟩
  | read _ reads =>
      refine ⟨latest, parsed, atInit, fun reload member => ?_⟩
      rcases List.mem_append.mp member with member | member
      · exact loaded reload member
      · cases List.mem_singleton.mp member
        exact (Watch.held_of_read reads).2
  | readFails _ => exact ⟨latest, parsed, atInit, loaded⟩
  | store member =>
      obtain ⟨latest, parsed, atInit, loaded⟩ := Consistent.publish ⟨latest, parsed, atInit, loaded⟩
        (loaded _ member)
      exact ⟨latest, parsed, atInit, fun reload kept => loaded reload (List.mem_of_mem_erase kept)⟩
  | cancel _ => exact ⟨latest, parsed, fun _ _ point => (by cases point), loaded⟩

/-! ## No write goes unnoticed -/

/-- While the file is only written in place its events arrive, and until they
have led to a read the last one may be of an older content. -/
structure Noticed (s : Watch) : Prop where
  watched : s.watched = some s.inode
  covered : s.point ≠ .returned → ∀ index, s.lastRead = some index →
    index = s.index ∨ .write ∈ s.events ∨ s.debounce = true ∨ s.starting ≠ 0

theorem start_noticed (initial : Mapping) (content : Bytes) :
    Noticed (.start initial content) where
  watched := rfl
  covered _ index read := by cases read

theorem Noticed.step {lower : Nat → Nat} {s next : Watch} {label : WatchLabel}
    (noticed : Noticed s) (inPlace : ∀ content, label ≠ .replace content)
    (watched : Watched lower s label next) : Noticed next := by
  obtain ⟨isWatched, covered⟩ := noticed
  cases watched with
  | write _ event => exact ⟨isWatched, fun _ _ _ => .inr (.inl (event isWatched))⟩
  | replace => exact absurd rfl (inPlace _)
  | initLoad _ reads =>
      refine ⟨isWatched, fun _ index read => .inl ?_⟩
      cases read
      exact (Watch.held_of_read reads).1
  | initLoadFails _ => exact ⟨isWatched, fun _ index read => (by cases read)⟩
  | initStore point =>
      exact ⟨isWatched, fun _ => covered (by rw [point]; exact WatchPoint.noConfusion)⟩
  | handle _ _ _ => exact ⟨rfl, fun _ _ _ => .inr (.inr (.inl rfl))⟩
  | ignore _ waiting notWrite =>
      refine ⟨isWatched, fun running index read => ?_⟩
      rw [waiting] at covered
      rcases covered running index read with current | event | others
      · exact .inl current
      · rcases List.mem_cons.mp event with first | later
        · exact absurd (.inl first.symm) notWrite
        · exact .inr (.inl later)
      · exact .inr (.inr others)
  | expire _ => exact ⟨isWatched, fun _ _ _ => .inr (.inr (.inr (Nat.succ_ne_zero _)))⟩
  | read _ reads =>
      refine ⟨isWatched, fun _ index read => .inl ?_⟩
      cases read
      exact (Watch.held_of_read reads).1
  | readFails _ => exact ⟨isWatched, fun _ index read => (by cases read)⟩
  | store _ => exact ⟨isWatched, covered⟩
  | cancel _ => exact ⟨isWatched, fun running => absurd rfl running⟩

/-! ## Stores in the order of the reads -/

/-- What holds as long as the reloads store in order. -/
structure InSequence (s : Watch) : Prop where
  early : s.point ≠ .loop → s.point ≠ .returned →
    s.debounce = false ∧ s.starting = 0 ∧ s.loaded = [] ∧ s.published = []
  own : ∀ index content, s.point = .initStore index content → s.lastRead = some index
  sorted : s.published.Pairwise fun entry later => entry.1 ≤ later.1
  behind : ∀ entry ∈ s.published, ∀ reload ∈ s.loaded, entry.1 ≤ reload.1
  newest : ∀ index, s.lastRead = some index → ∀ reload ∈ s.loaded, reload.1 ≤ index
  latest : ∀ index, s.lastRead = some index →
    (∃ content, s.point = .initStore index content) ∨ (∃ content, (index, content) ∈ s.loaded) ∨
      ∃ map, s.published.getLast? = some (index, map)

theorem start_inSequence (initial : Mapping) (content : Bytes) :
    InSequence (.start initial content) where
  early _ _ := ⟨rfl, rfl, rfl, rfl⟩
  own index content point := by cases point
  sorted := .nil
  behind _ member := absurd member List.not_mem_nil
  newest _ read := by cases read
  latest _ read := by cases read

/-- A reload is only under way once the loop runs. -/
theorem InSequence.started {s : Watch} (inSequence : InSequence s)
    (underWay : s.debounce = true ∨ s.starting ≠ 0 ∨ s.loaded ≠ []) :
    s.point = .loop ∨ s.point = .returned := by
  by_contra early
  rw [not_or] at early
  obtain ⟨debounce, starting, loaded, -⟩ := inSequence.early early.1 early.2
  rcases underWay with isTrue | isNonzero | isNonempty
  · rw [debounce] at isTrue
    cases isTrue
  · exact isNonzero starting
  · exact isNonempty loaded

theorem InSequence.initStore {lower : Nat → Nat} {s : Watch} {index : Nat} {content : Bytes}
    (inSequence : InSequence s) (point : s.point = .initStore index content) :
    InSequence { s.publish lower index content with point := .loop } := by
  obtain ⟨-, -, noReload, nothing⟩ := inSequence.early
    (by rw [point]; exact WatchPoint.noConfusion) (by rw [point]; exact WatchPoint.noConfusion)
  have none : ∀ reload, reload ∉ s.loaded := fun reload => noReload ▸ List.not_mem_nil
  refine ⟨fun notLoop => absurd rfl notLoop, fun _ _ point => (by cases point), ?_,
    fun _ _ reload member => absurd member (none reload),
    fun _ _ reload member => absurd member (none reload), ?_⟩
  · change (s.published ++ _).Pairwise _
    rw [nothing]
    exact List.pairwise_singleton _ _
  · intro last read
    cases (inSequence.own index content point).symm.trans read
    exact .inr (.inr ⟨_, List.getLast?_concat⟩)

theorem InSequence.read {lower : Nat → Nat} {initial : Mapping} {s : Watch}
    {starting index : Nat} {content : Bytes} (inSequence : InSequence s)
    (consistent : Consistent lower initial s) (waiting : s.starting = starting + 1)
    (reads : s.read = some (index, content)) :
    InSequence { s with
      starting, loaded := s.loaded ++ [(index, content)], lastRead := some index } := by
  have started := inSequence.started (.inr (.inl (by rw [waiting]; exact Nat.succ_ne_zero _)))
  obtain ⟨rfl, -⟩ := Watch.held_of_read reads
  refine ⟨fun notLoop notReturned => ?_, fun index content point => ?_, inSequence.sorted, ?_, ?_,
    ?_⟩
  · exact absurd started (not_or.mpr ⟨notLoop, notReturned⟩)
  · change s.point = _ at point
    simp [point] at started
  · intro entry member reload isReload
    rcases List.mem_append.mp isReload with isReload | isNew
    · exact inSequence.behind entry member reload isReload
    · cases List.mem_singleton.mp isNew
      obtain ⟨_, held, -⟩ := consistent.parsed entry member
      exact Watch.held_le held
  · intro index read reload isReload
    cases read
    rcases List.mem_append.mp isReload with isReload | isNew
    · exact Watch.held_le (consistent.loaded reload isReload)
    · cases List.mem_singleton.mp isNew
      exact Nat.le_refl _
  · intro index read
    cases read
    exact .inr (.inl ⟨content, List.mem_append_right _ (List.mem_singleton_self _)⟩)

theorem InSequence.store {lower : Nat → Nat} {s : Watch} {index : Nat} {content : Bytes}
    (inSequence : InSequence s) (inOrder : ∀ other ∈ s.loaded, index ≤ other.1)
    (member : (index, content) ∈ s.loaded) :
    InSequence { s.publish lower index content with
      loaded := s.loaded.erase (index, content) } := by
  have started := inSequence.started (.inr (.inr (List.ne_nil_of_mem member)))
  refine ⟨fun notLoop notReturned => ?_, inSequence.own, ?_, ?_, ?_, ?_⟩
  · exact absurd started (not_or.mpr ⟨notLoop, notReturned⟩)
  · refine List.pairwise_append.mpr ⟨inSequence.sorted, List.pairwise_singleton _ _, ?_⟩
    intro entry isEntry later isNew
    cases List.mem_singleton.mp isNew
    exact inSequence.behind entry isEntry _ member
  · intro entry isEntry reload kept
    have isReload := List.mem_of_mem_erase kept
    rcases List.mem_append.mp isEntry with isEntry | isNew
    · exact inSequence.behind entry isEntry reload isReload
    · cases List.mem_singleton.mp isNew
      exact inOrder reload isReload
  · intro last read reload kept
    exact inSequence.newest last read reload (List.mem_of_mem_erase kept)
  · intro last read
    rcases inSequence.latest last read with ⟨_, point⟩ | ⟨other, isReload⟩ | ⟨_, isLast⟩
    · simp [point] at started
    · by_cases same : (last, other) = (index, content)
      · cases same
        exact .inr (.inr ⟨_, List.getLast?_concat⟩)
      · exact .inr (.inl ⟨other, (List.mem_erase_of_ne same).mpr isReload⟩)
    · -- it was stored already, so what is left to store is the same content
      have lower : last ≤ index := inSequence.behind _ (List.mem_of_getLast? isLast) _ member
      have upper : index ≤ last := inSequence.newest last read _ member
      rw [Nat.le_antisymm lower upper]
      exact .inr (.inr ⟨_, List.getLast?_concat⟩)

theorem InSequence.step {lower : Nat → Nat} {initial : Mapping} {s next : Watch}
    {label : WatchLabel} (inSequence : InSequence s) (consistent : Consistent lower initial s)
    (inOrder : InOrder s label) (watched : Watched lower s label next) : InSequence next := by
  obtain ⟨early, own, sorted, behind, newest, latest⟩ := inSequence
  cases watched with
  | write _ _ | replace => exact ⟨early, own, sorted, behind, newest, latest⟩
  | initLoad point _ =>
      obtain ⟨noTimer, noStart, noReload, nothing⟩ := early
        (by rw [point]; exact WatchPoint.noConfusion) (by rw [point]; exact WatchPoint.noConfusion)
      refine ⟨fun _ _ => ⟨noTimer, noStart, noReload, nothing⟩, fun _ _ point => ?_, sorted, behind,
        fun _ _ reload member => absurd (noReload ▸ member) List.not_mem_nil, fun _ read => ?_⟩
      · cases point
        rfl
      · cases read
        exact .inl ⟨_, rfl⟩
  | initLoadFails _ =>
      exact ⟨fun notLoop => absurd rfl notLoop, fun _ _ point => (by cases point), sorted, behind,
        fun _ read => (by cases read), fun _ read => (by cases read)⟩
  | initStore point =>
      exact InSequence.initStore ⟨early, own, sorted, behind, newest, latest⟩ point
  | handle point _ _ =>
      exact ⟨fun notLoop => absurd point notLoop, own, sorted, behind, newest, latest⟩
  | ignore _ _ _ => exact ⟨early, own, sorted, behind, newest, latest⟩
  | expire running =>
      refine ⟨fun notLoop notReturned => ?_, own, sorted, behind, newest, latest⟩
      cases running.symm.trans (early notLoop notReturned).1
  | read waiting reads =>
      exact InSequence.read ⟨early, own, sorted, behind, newest, latest⟩ consistent waiting reads
  | readFails waiting =>
      refine ⟨fun notLoop notReturned => ?_, fun index content point => ?_, sorted, behind,
        fun _ read => (by cases read), fun _ read => (by cases read)⟩
      · cases waiting.symm.trans (early notLoop notReturned).2.1
      · change s.point = _ at point
        have started := InSequence.started ⟨early, own, sorted, behind, newest, latest⟩
          (.inr (.inl (by rw [waiting]; exact Nat.succ_ne_zero _)))
        simp [point] at started
  | store member =>
      exact InSequence.store ⟨early, own, sorted, behind, newest, latest⟩ inOrder member
  | cancel point =>
      refine ⟨fun _ notReturned => absurd rfl notReturned, fun _ _ point => (by cases point), sorted,
        behind, newest, fun last read => ?_⟩
      rcases latest last read with ⟨_, init⟩ | others
      · cases point.symm.trans init
      · exact .inr others

/-- A newer content was stored than one that a reload stored or will store after it. -/
def Overtaken (s : Watch) : Prop :=
  (∃ entry ∈ s.published, ∃ reload ∈ s.loaded, reload.1 < entry.1) ∨
    ¬ s.published.Pairwise fun entry later => entry.1 ≤ later.1

theorem overtaken_of_not_inOrder {lower : Nat → Nat} {s next : Watch} {label : WatchLabel}
    (notInOrder : ¬ InOrder s label) (watched : Watched lower s label next) : Overtaken next := by
  cases watched with
  | @store index content member =>
      simp only [InOrder, not_forall, Nat.not_le] at notInOrder
      obtain ⟨other, isReload, older⟩ := notInOrder
      refine .inl ⟨(index, loadDNSFile lower content), List.mem_append_right _
        (List.mem_singleton_self _), other, (List.mem_erase_of_ne ?_).mpr isReload, older⟩
      rintro rfl
      exact Nat.lt_irrefl _ older
  | _ => exact absurd trivial notInOrder

/-- What was overtaken stays so: it is stored out of order or is still to be stored. -/
theorem Overtaken.step {lower : Nat → Nat} {s next : Watch} {label : WatchLabel}
    (overtaken : Overtaken s) (watched : Watched lower s label next) : Overtaken next := by
  cases watched with
  | write _ _ | replace | initLoad _ _ | initLoadFails _ | handle _ _ _ | ignore _ _ _ | expire _
  | readFails _ => exact overtaken
  | initStore _ =>
      rcases overtaken with ⟨entry, isEntry, others⟩ | unsorted
      · exact .inl ⟨entry, List.mem_append_left _ isEntry, others⟩
      · exact .inr fun sorted => unsorted (List.pairwise_append.mp sorted).1
  | read _ _ =>
      rcases overtaken with ⟨entry, isEntry, reload, isReload, older⟩ | unsorted
      · exact .inl ⟨entry, isEntry, reload, List.mem_append_left _ isReload, older⟩
      · exact .inr unsorted
  | @store index content member =>
      rcases overtaken with ⟨entry, isEntry, reload, isReload, older⟩ | unsorted
      · by_cases same : reload = (index, content)
        · refine .inr fun sorted => ?_
          have ordered := (List.pairwise_append.mp sorted).2.2 entry isEntry _
            (List.mem_singleton_self _)
          rw [same] at older
          exact absurd ordered (Nat.not_le.mpr older)
        · exact .inl ⟨entry, List.mem_append_left _ isEntry, reload,
            (List.mem_erase_of_ne same).mpr isReload, older⟩
      · exact .inr fun sorted => unsorted (List.pairwise_append.mp sorted).1
  | cancel _ => exact overtaken

/-! ## Quiescent states -/

variable {lower : Nat → Nat} {initial : Mapping} {content : Bytes} {labels : List WatchLabel}
  {s : Watch}

theorem run_noticed (runs : run (watchStep lower) (.start initial content) labels = some s)
    (inPlace : ∀ new, .replace new ∉ labels) : Noticed s := by
  refine run_invariant_of_labels Noticed (fun label => ∀ new, label ≠ .replace new)
    (start_noticed initial content) ?_ ?_ runs
  · intro _ _ _ noticed inPlace taken
    exact noticed.step inPlace (watched_of_watchStep taken)
  · rintro _ member new rfl
    exact inPlace new member

theorem run_inSequence (runs : run (watchStep lower) (.start initial content) labels = some s)
    (inOrder : ∀ entry ∈ history (watchStep lower) (.start initial content) labels,
      InOrder entry.1 entry.2) : Consistent lower initial s ∧ InSequence s :=
  run_invariant_of_forall (fun s => Consistent lower initial s ∧ InSequence s) InOrder
    ⟨start_consistent lower initial content, start_inSequence initial content⟩
    (fun _ _ _ ⟨consistent, inSequence⟩ inOrder taken =>
      have watched := watched_of_watchStep taken
      ⟨consistent.step watched, inSequence.step consistent inOrder watched⟩) inOrder runs

theorem run_overtaken (runs : run (watchStep lower) (.start initial content) labels = some s)
    {entry : Watch × WatchLabel}
    (member : entry ∈ history (watchStep lower) (.start initial content) labels)
    (notInOrder : ¬ InOrder entry.1 entry.2) : Overtaken s := by
  exact run_invariant_from Overtaken member
    (fun _ _ _ taken => overtaken_of_not_inOrder notInOrder (watched_of_watchStep taken))
    (fun _ _ _ overtaken taken => overtaken.step (watched_of_watchStep taken)) runs

theorem Watch.Quiescent.not_overtaken (quiescent : s.Quiescent)
    (sorted : s.published.Pairwise fun entry later => entry.1 ≤ later.1) : ¬ Overtaken s := by
  obtain ⟨-, -, -, -, noReload, -⟩ := quiescent
  rintro (⟨_, _, reload, isReload, _⟩ | unsorted)
  · rw [noReload] at isReload
    exact absurd isReload List.not_mem_nil
  · exact unsorted sorted

/-- What was stored last came from the current content. -/
theorem Watch.Quiescent.map_eq (quiescent : s.Quiescent) (noticed : Noticed s)
    (consistent : Consistent lower initial s) (inSequence : InSequence s) :
    ∃ current, s.contents.getLast? = some current ∧ s.map = loadDNSFile lower current := by
  obtain ⟨inLoop, noEvent, noTimer, noStart, noReload, succeeded⟩ := quiescent
  obtain ⟨index, read⟩ := Option.isSome_iff_exists.mp succeeded
  have isCurrent : index = s.index := by
    rcases noticed.covered (by rw [inLoop]; exact WatchPoint.noConfusion) index read with
      current | event | timer | start
    · exact current
    · rw [noEvent] at event
      exact absurd event List.not_mem_nil
    · cases noTimer.symm.trans timer
    · exact absurd noStart start
  rcases inSequence.latest index read with ⟨_, point⟩ | ⟨_, isReload⟩ | ⟨map, isLast⟩
  · cases inLoop.symm.trans point
  · rw [noReload] at isReload
    exact absurd isReload List.not_mem_nil
  · obtain ⟨current, held, rfl⟩ := consistent.parsed _ (List.mem_of_getLast? isLast)
    refine ⟨current, ?_, by rw [consistent.latest, isLast]; rfl⟩
    rw [List.getLast?_eq_getElem?]
    change s.contents[s.index]? = some current
    rw [← isCurrent]
    exact held

/-- Under in-place writes: as long as the reloads store in the order in which
they read, a quiescent state has the mapping of the current content and no
older mapping is stored after a newer one; and a run that ends quiescent
without such a store had all its stores in order. -/
theorem current_of_inOrder
    (runs : run (watchStep lower) (.start initial content) labels = some s)
    (inPlace : ∀ new, .replace new ∉ labels) :
    ((∀ entry ∈ history (watchStep lower) (.start initial content) labels,
        InOrder entry.1 entry.2) →
      (s.Quiescent → ∃ current, s.contents.getLast? = some current ∧
        s.map = loadDNSFile lower current) ∧
      s.published.Pairwise fun entry later => entry.1 ≤ later.1) ∧
    (s.Quiescent → (s.published.Pairwise fun entry later => entry.1 ≤ later.1) →
      ∀ entry ∈ history (watchStep lower) (.start initial content) labels,
        InOrder entry.1 entry.2) := by
  refine ⟨fun inOrder => ?_, fun quiescent sorted entry member => ?_⟩
  · obtain ⟨consistent, inSequence⟩ := run_inSequence runs inOrder
    exact ⟨fun quiescent => quiescent.map_eq (run_noticed runs inPlace) consistent inSequence,
      inSequence.sorted⟩
  · by_contra notInOrder
    exact quiescent.not_overtaken sorted (run_overtaken runs member notInOrder)

/-- One edit, noticed and reloaded. -/
def editOnce : List WatchLabel :=
  [.initLoad true, .initStore, .write [117, 32, 97] false, .handle, .expire, .read true,
    .store 1 [117, 32, 97]]

theorem current_of_inOrder_editOnce :
    ∃ s, run (watchStep id) (.start ∅ [116, 32, 97]) editOnce = some s ∧
      ∃ current, s.contents.getLast? = some current ∧ s.map = loadDNSFile id current :=
  have runs : run (watchStep id) (.start ∅ [116, 32, 97]) editOnce = some _ := rfl
  ⟨_, runs, ((current_of_inOrder runs (by simp [editOnce])).1 (by decide)).1 (by decide)⟩

/-- The file is edited twice.  The first edit's reload has read when the second edit's timer
fires, and stores after the second reload. -/
def editTwice : List WatchLabel :=
  [.initLoad true, .initStore, .write [117, 32, 97] false, .handle, .expire, .read true,
    .write [118, 32, 97] false, .handle, .expire, .read true, .store 2 [118, 32, 97],
    .store 1 [117, 32, 97]]

/-- Nothing is under way, the file says `v a`, and the mapping says `u`. -/
theorem stale_after_overtaking :
    (∀ new, .replace new ∉ editTwice) ∧
      ∃ s, run (watchStep id) (.start ∅ [116, 32, 97]) editTwice = some s ∧ s.Quiescent ∧
        s.contents.getLast? = some [118, 32, 97] ∧
        (loadDNSFile id [118, 32, 97]).lookup [97] = some [118] ∧
        s.map.lookup [97] = some [117] ∧
        ¬ s.published.Pairwise fun entry later => entry.1 ≤ later.1 :=
  ⟨by simp [editTwice], _, rfl, by decide, rfl, by decide, by decide, by decide⟩

end TailcatSocks.Go
