import TailcatSocks.Go.Watch

/-!
# Following a file that is replaced

The watch goes with the file that was at `path` when it was armed, and ends when
another file is renamed there.  It is armed again when a write event is handled,
which only a file that is watched produces: a replacement is survived when such
an event waits already, and by no other means.
-/

namespace TailcatSocks.Go

open Library

/-- The loop runs, every event is handled and no timer is armed. -/
def Watch.Settled (s : Watch) : Prop := s.point = .loop ∧ s.events = [] ∧ s.debounce = false

/-- When the file is replaced, a write event waits to be handled. -/
def ReplacedAmidWrites (s : Watch) : WatchLabel → Prop
  | .replace _ => .write ∈ s.events
  | _ => True

instance (s : Watch) : (label : WatchLabel) → Decidable (ReplacedAmidWrites s label)
  | .replace _ => inferInstanceAs (Decidable (.write ∈ s.events))
  | .write _ _ | .initLoad _ | .initStore | .handle | .expire | .read _ | .store _ _ | .cancel =>
      .isTrue trivial

/-! ## What changes of the file do to the watch -/

/-- The watch is of the file at `path` or of none, and no other events arrive
than those of writes and those that the loop ignores. -/
structure Plain (s : Watch) : Prop where
  known : s.watched = none ∨ s.watched = some s.inode
  noCreate : .create ∉ s.events

/-- The file is watched, or will be once the waiting events are handled. -/
def Followed (s : Watch) : Prop := s.watched = some s.inode ∨ .write ∈ s.events

/-- No file is watched, and no waiting event leads to another watch. -/
structure Lost (s : Watch) : Prop where
  unwatched : s.watched = none
  noWrite : .write ∉ s.events
  noCreate : .create ∉ s.events

theorem start_plain (initial : Mapping) (content : Bytes) : Plain (.start initial content) :=
  ⟨.inr rfl, List.not_mem_nil⟩

variable {lower : Nat → Nat} {s next : Watch} {content : Bytes}

theorem mem_append_other {events : List Event} {event : Event} (kind : event ≠ .other) :
    event ∈ events ++ [.other] ↔ event ∈ events := by
  rw [List.mem_append, List.mem_singleton, or_iff_left kind]

/-- A write to the watched file leads to a write event, any other to none. -/
theorem events_of_write {merged : Bool}
    (taken : watchStep lower s (.write content merged) = some next) :
    next.watched = s.watched ∧ next.inode = s.inode ∧ next.debounce = s.debounce ∧
      (∀ event, event ≠ .write → (event ∈ next.events ↔ event ∈ s.events)) ∧
      (.write ∈ next.events ↔ .write ∈ s.events ∨ s.watched = some s.inode) := by
  simp only [watchStep] at taken
  split at taken
  · next watched =>
    split at taken
    · split at taken <;> cases taken
      next waiting =>
      exact ⟨rfl, rfl, rfl, fun _ _ => Iff.rfl,
        ⟨.inl, fun _ => List.mem_of_getLast? waiting⟩⟩
    · cases taken
      refine ⟨rfl, rfl, rfl, fun event other => ?_, ?_⟩
      · rw [List.mem_append, List.mem_singleton, or_iff_left other]
      · exact ⟨fun _ => .inr watched,
          fun _ => List.mem_append_right _ (List.mem_singleton_self _)⟩
  · next unwatched =>
    cases taken
    exact ⟨rfl, rfl, rfl, fun _ _ => Iff.rfl, ⟨.inl, fun waits => waits.resolve_right unwatched⟩⟩

/-- A replacement ends the watch, and leads to no event that restores it. -/
theorem events_of_replace (plain : Plain s)
    (taken : watchStep lower s (.replace content) = some next) :
    next.watched = none ∧ next.debounce = s.debounce ∧
      ∀ event, event ≠ .other → (event ∈ next.events ↔ event ∈ s.events) := by
  simp only [watchStep] at taken
  split at taken <;> cases taken
  · exact ⟨rfl, rfl, fun _ kind => mem_append_other kind⟩
  · next unwatched => exact ⟨plain.known.resolve_right unwatched, rfl, fun _ _ => Iff.rfl⟩

theorem Plain.step {label : WatchLabel} (plain : Plain s)
    (taken : watchStep lower s label = some next) : Plain next := by
  cases watched_of_watchStep taken with
  | write _ _ =>
      obtain ⟨watched, inode, -, others, -⟩ := events_of_write taken
      exact ⟨by rw [watched, inode]; exact plain.known,
        fun created => plain.noCreate ((others .create (by decide)).mp created)⟩
  | replace =>
      obtain ⟨unwatched, -, others⟩ := events_of_replace plain taken
      exact ⟨.inl unwatched,
        fun created => plain.noCreate ((others .create (by decide)).mp created)⟩
  | handle _ waiting _ =>
      refine ⟨.inr rfl, fun created => plain.noCreate ?_⟩
      rw [waiting]
      exact List.mem_cons_of_mem _ created
  | ignore _ waiting _ =>
      refine ⟨plain.known, fun created => plain.noCreate ?_⟩
      rw [waiting]
      exact List.mem_cons_of_mem _ created
  | initLoad _ _ | initLoadFails _ | initStore _ | expire _ | read _ _ | readFails _ | store _
  | cancel _ => exact ⟨plain.known, plain.noCreate⟩

theorem Followed.step {label : WatchLabel} (followed : Followed s) (plain : Plain s)
    (amidWrites : ReplacedAmidWrites s label)
    (taken : watchStep lower s label = some next) : Followed next := by
  cases watched_of_watchStep taken with
  | write _ _ =>
      obtain ⟨watched, inode, -, -, writes⟩ := events_of_write taken
      exact .inr (writes.mpr (followed.symm))
  | replace =>
      obtain ⟨-, -, others⟩ := events_of_replace plain taken
      exact .inr ((others .write (by decide)).mpr amidWrites)
  | handle _ _ _ => exact .inl rfl
  | ignore _ waiting notWrite =>
      refine followed.imp_right fun write => ?_
      rw [waiting] at write
      rcases List.mem_cons.mp write with first | later
      · exact absurd (.inl first.symm) notWrite
      · exact later
  | initLoad _ _ | initLoadFails _ | initStore _ | expire _ | read _ _ | readFails _ | store _
  | cancel _ => exact followed

/-- What is lost stays lost, and its timer is never armed again. -/
theorem Lost.step {label : WatchLabel} (lost : Lost s)
    (taken : watchStep lower s label = some next) :
    Lost next ∧ (s.debounce = false → next.debounce = false) := by
  have plain : Plain s := ⟨.inl lost.unwatched, lost.noCreate⟩
  have notWatched : s.watched ≠ some s.inode := by
    rw [lost.unwatched]
    exact (Option.some_ne_none s.inode).symm
  cases watched_of_watchStep taken with
  | write _ _ =>
      obtain ⟨watched, -, debounce, others, writes⟩ := events_of_write taken
      refine ⟨⟨watched.trans lost.unwatched, fun write => ?_, fun created => ?_⟩, debounce.trans⟩
      · exact (writes.mp write).elim lost.noWrite notWatched
      · exact lost.noCreate ((others .create (by decide)).mp created)
  | replace =>
      obtain ⟨unwatched, debounce, others⟩ := events_of_replace plain taken
      exact ⟨⟨unwatched, fun write => lost.noWrite ((others .write (by decide)).mp write),
        fun created => lost.noCreate ((others .create (by decide)).mp created)⟩, debounce.trans⟩
  | @handle event events _ waiting kind =>
      have member : event ∈ s.events := by
        rw [waiting]
        exact List.mem_cons_self
      rcases kind with rfl | rfl
      · exact absurd member lost.noWrite
      · exact absurd member lost.noCreate
  | ignore _ waiting _ =>
      have kept : ∀ {event events first}, s.events = first :: events → event ∈ events →
          event ∈ s.events := fun waiting member => waiting ▸ List.mem_cons_of_mem _ member
      exact ⟨⟨lost.unwatched, fun write => lost.noWrite (kept waiting write),
        fun created => lost.noCreate (kept waiting created)⟩, id⟩
  | initLoad _ _ | initLoadFails _ | initStore _ | read _ _ | readFails _ | store _ =>
      exact ⟨⟨lost.unwatched, lost.noWrite, lost.noCreate⟩, id⟩
  | expire _ | cancel _ => exact ⟨⟨lost.unwatched, lost.noWrite, lost.noCreate⟩, fun _ => rfl⟩

theorem lost_of_replace (plain : Plain s) (noWrite : .write ∉ s.events)
    (taken : watchStep lower s (.replace content) = some next) : Lost next := by
  obtain ⟨unwatched, -, others⟩ := events_of_replace plain taken
  exact ⟨unwatched, fun write => noWrite ((others .write (by decide)).mp write),
    fun created => plain.noCreate ((others .create (by decide)).mp created)⟩

/-! ## Whole runs -/

variable {initial : Mapping} {first : Bytes} {labels : List WatchLabel}

theorem run_plain (runs : run (watchStep lower) (.start initial first) labels = some s) : Plain s :=
  run_invariant Plain (start_plain initial first) (fun _ _ _ plain taken => plain.step taken) runs

theorem run_followed (runs : run (watchStep lower) (.start initial first) labels = some s)
    (amidWrites : ∀ entry ∈ history (watchStep lower) (.start initial first) labels,
      ReplacedAmidWrites entry.1 entry.2) : Followed s := by
  have both := run_invariant_of_forall (fun s => Plain s ∧ Followed s) ReplacedAmidWrites
    ⟨start_plain initial first, .inl rfl⟩
    (fun _ _ _ ⟨plain, followed⟩ amidWrites taken =>
      ⟨plain.step taken, followed.step plain amidWrites taken⟩) amidWrites runs
  exact both.2

theorem run_lost (runs : run (watchStep lower) (.start initial first) labels = some s)
    {entry : Watch × WatchLabel}
    (member : entry ∈ history (watchStep lower) (.start initial first) labels)
    (unnoticed : ¬ ReplacedAmidWrites entry.1 entry.2) : Lost s := by
  refine run_invariant_from Lost member (fun front next reaches taken => ?_)
    (fun _ _ _ lost taken => (lost.step taken).1) runs
  cases replaces : entry.2 with
  | replace content =>
      rw [replaces] at unnoticed taken
      exact lost_of_replace (run_plain reaches) unnoticed taken
  | _ =>
      rw [replaces] at unnoticed
      exact absurd trivial unnoticed

/-- From a lost watch no further reload is ever scheduled. -/
theorem run_of_lost {later : Watch} {more : List WatchLabel} (lost : Lost s)
    (noTimer : s.debounce = false) (goes : run (watchStep lower) s more = some later) :
    later.watched = none ∧ later.debounce = false := by
  have kept := run_invariant (fun s => Lost s ∧ s.debounce = false) ⟨lost, noTimer⟩
    (fun _ _ _ ⟨lost, noTimer⟩ taken => ⟨(lost.step taken).1, (lost.step taken).2 noTimer⟩) goes
  exact ⟨kept.1.unwatched, kept.2⟩

/-- A write to the watched file leads to a reload of what was written. -/
theorem reload_of_write (settled : s.Settled) (watched : s.watched = some s.inode)
    (content : Bytes) :
    ∃ later, run (watchStep lower) s
        [.write content false, .handle, .expire, .read true, .store s.contents.length content] =
          some later ∧ later.map = loadDNSFile lower content := by
  obtain ⟨inLoop, noEvent, noTimer⟩ := settled
  simp [run, watchStep, watched, inLoop, noEvent, Watch.read, Watch.index, Watch.publish]

/-- When the events of a run are handled and no timer is armed, the file at
`path` is watched exactly when every replacement found a write event waiting.
Then a write in place can be followed by a reload of it; otherwise no timer is
ever armed again. -/
theorem followed_iff (runs : run (watchStep lower) (.start initial first) labels = some s)
    (settled : s.Settled) :
    (s.watched = some s.inode ↔
        ∀ entry ∈ history (watchStep lower) (.start initial first) labels,
          ReplacedAmidWrites entry.1 entry.2) ∧
      (s.watched = some s.inode → ∀ content, ∃ later, run (watchStep lower) s
        [.write content false, .handle, .expire, .read true, .store s.contents.length content] =
          some later ∧ later.map = loadDNSFile lower content) ∧
      (s.watched ≠ some s.inode → ∀ more later, run (watchStep lower) s more = some later →
        later.watched = none ∧ later.debounce = false) := by
  obtain ⟨inLoop, noEvent, noTimer⟩ := settled
  have isFollowed : (∀ entry ∈ history (watchStep lower) (.start initial first) labels,
      ReplacedAmidWrites entry.1 entry.2) → s.watched = some s.inode := fun amidWrites =>
    (run_followed runs amidWrites).resolve_right fun write => by
      rw [noEvent] at write
      exact absurd write List.not_mem_nil
  have isLost : s.watched ≠ some s.inode → Lost s := fun notWatched => by
    have unnoticed := mt isFollowed notWatched
    simp only [not_forall] at unnoticed
    obtain ⟨entry, member, unnoticed⟩ := unnoticed
    exact run_lost runs member unnoticed
  refine ⟨⟨fun watched entry member => ?_, isFollowed⟩,
    fun watched => reload_of_write ⟨inLoop, noEvent, noTimer⟩ watched, ?_⟩
  · by_contra unnoticed
    have lost := run_lost runs member unnoticed
    rw [lost.unwatched] at watched
    cases watched
  · exact fun notWatched more later goes => run_of_lost (isLost notWatched) noTimer goes

/-- The file is written, and replaced before the event of the write is handled. -/
def replacedAmidWrites : List WatchLabel :=
  [.initLoad true, .initStore, .write [117, 32, 97] false, .replace [118, 32, 97], .handle, .handle,
    .expire]

theorem followed_iff_replacedAmidWrites :
    ∃ s, run (watchStep id) (.start ∅ [116, 32, 97]) replacedAmidWrites = some s ∧
      s.watched = some s.inode :=
  have runs : run (watchStep id) (.start ∅ [116, 32, 97]) replacedAmidWrites = some _ := rfl
  ⟨_, runs, (followed_iff runs ⟨rfl, rfl, rfl⟩).1.mpr (by decide)⟩

/-- The file is replaced while the watcher sleeps. -/
def replacedOnce : List WatchLabel :=
  [.initLoad true, .initStore, .replace [117, 32, 97], .handle]

/-- Then nothing is under way, the new file is not watched, and a write to it
is never noticed. -/
theorem unwatched_after_replace :
    ∃ s, run (watchStep id) (.start ∅ [116, 32, 97]) replacedOnce = some s ∧ s.Settled ∧
      s.watched ≠ some s.inode ∧
      ∀ more later, run (watchStep id) s more = some later → later.debounce = false := by
  have runs : run (watchStep id) (.start ∅ [116, 32, 97]) replacedOnce = some _ := rfl
  refine ⟨_, runs, ⟨rfl, rfl, rfl⟩, by decide, fun more later goes => ?_⟩
  exact (run_of_lost ⟨rfl, by decide, by decide⟩ rfl goes).2

end TailcatSocks.Go
