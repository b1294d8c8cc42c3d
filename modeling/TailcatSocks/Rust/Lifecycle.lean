import TailcatSocks.Library.Runs

/-!
# The life of the Rust program and its child

`run` with `wait_ready` and `terminate`, from its first check to its exit code.
The labels are the steps of `run`, those of the child, of signals and of the
`serve` task, and the passing of a millisecond.  Both signal streams exist
before the first check and keep what they have not delivered, and only the
`select!` of the serving phase asks them.  `serve.abort()` is a request: the
task may go on accepting for a while, and `run` does not wait for its end.
-/

namespace TailcatSocks.Rust

open Library

/-- Where `run` stands. -/
inductive LifePoint where
  | loadDns
  | parseListen
  | parseUpstream
  | bind
  | spawn
  /-- At the top of the loop of `wait_ready`. -/
  | polling (deadline : Nat)
  | connecting (deadline fireAt : Nat)
  | sleeping (deadline wakeAt : Nat)
  /-- `wait_ready` has returned false. -/
  | notReady
  | starting
  | select
  /-- After the `select!`. -/
  | aborting
  /-- At the call of `terminate`, if there is a child. -/
  | terminating (code : Nat)
  /-- In `timeout(5s, child.wait())`. -/
  | waiting (code killAt : Nat)
  /-- After `start_kill`, in `child.wait()`. -/
  | killed (code : Nat)
  | returned (code : Nat)
  deriving DecidableEq, Repr

inductive Child where
  | none
  | running
  | exited
  /-- `wait` has returned. -/
  | reaped
  deriving DecidableEq, Repr

inductive ServeTask where
  | idle
  | accepting
  /-- Still accepting, after `abort`. -/
  | cancelling
  | ended
  | aborted
  deriving DecidableEq, Repr

def ServeTask.live : ServeTask → Bool
  | .accepting | .cancelling => true
  | .idle | .ended | .aborted => false

structure Life where
  /-- In milliseconds. -/
  now : Nat
  point : LifePoint
  child : Child
  serve : ServeTask
  /-- `sigterm` or `sigint` has something to receive. -/
  signalled : Bool
  deriving DecidableEq, Repr

inductive LifeLabel where
  | tick
  | signal
  | childExits
  | serveEnds
  /-- The request to abort takes effect. -/
  | cancelled
  /-- The next of the checks before the launch. -/
  | check (succeeds : Bool)
  | noAutolaunch
  | spawn (succeeds : Bool)
  | poll
  | connect (succeeds : Bool)
  | elapse
  | wake
  | abandon
  | start
  | selectSignal
  | selectServe
  | abort
  | terminate
  | reap
  | kill
  /-- SIGKILL takes effect. -/
  | dies
  deriving DecidableEq, Repr

/-- The timeout that `run` passes to `wait_ready`. -/
def readyTimeout : Nat := 15000

def connectTimeout : Nat := 1000

def pollInterval : Nat := 200

/-- How long `terminate` waits for the child to honour SIGTERM. -/
def killGrace : Nat := 5000

/-- What follows a check that succeeds. -/
def nextCheck : LifePoint → Option LifePoint
  | .loadDns => some .parseListen
  | .parseListen => some .parseUpstream
  | .parseUpstream => some .bind
  | .bind => some .spawn
  | _ => none

def lifeStep (noAutolaunch : Bool) (s : Life) : LifeLabel → Option Life
  | .tick => some { s with now := s.now + 1 }
  | .signal => some { s with signalled := true }
  | .childExits => if s.child = .running then some { s with child := .exited } else none
  | .serveEnds => if s.serve.live then some { s with serve := .ended } else none
  | .cancelled => if s.serve = .cancelling then some { s with serve := .aborted } else none
  | .check succeeds =>
      match nextCheck s.point with
      | some next => some { s with point := if succeeds then next else .returned 1 }
      | none => none
  | .noAutolaunch =>
      if s.point = .spawn ∧ noAutolaunch = true then some { s with point := .starting } else none
  | .spawn succeeds =>
      if s.point = .spawn ∧ noAutolaunch = false then
        if succeeds then
          some { s with point := .polling (s.now + readyTimeout), child := .running }
        else some { s with point := .returned 1 }
      else none
  | .poll =>
      match s.point with
      | .polling deadline =>
          if s.now < deadline then
            some { s with point := .connecting deadline (s.now + connectTimeout) }
          else some { s with point := .notReady }
      | _ => none
  | .connect succeeds =>
      match s.point with
      | .connecting deadline _ =>
          some { s with
            point := if succeeds then .starting else .sleeping deadline (s.now + pollInterval) }
      | _ => none
  | .elapse =>
      match s.point with
      | .connecting deadline fireAt =>
          if fireAt ≤ s.now then
            some { s with point := .sleeping deadline (s.now + pollInterval) }
          else none
      | _ => none
  | .wake =>
      match s.point with
      | .sleeping deadline wakeAt =>
          if wakeAt ≤ s.now then some { s with point := .polling deadline } else none
      | _ => none
  | .abandon => if s.point = .notReady then some { s with point := .terminating 1 } else none
  | .start =>
      if s.point = .starting then some { s with point := .select, serve := .accepting } else none
  | .selectSignal =>
      if s.point = .select ∧ s.signalled = true then
        some { s with point := .aborting, signalled := false }
      else none
  | .selectServe =>
      if s.point = .select ∧ s.serve = .ended then some { s with point := .aborting } else none
  | .abort =>
      if s.point = .aborting then
        some { s with
          point := .terminating 0
          serve := if s.serve = .accepting then .cancelling else s.serve }
      else none
  | .terminate =>
      match s.point with
      | .terminating code =>
          -- `child.id()` is `None` once `wait` has returned
          if s.child = .none ∨ s.child = .reaped then some { s with point := .returned code }
          else some { s with point := .waiting code (s.now + killGrace) }
      | _ => none
  | .reap =>
      match s.point with
      | .waiting code _ =>
          if s.child = .exited then some { s with point := .returned code, child := .reaped }
          else none
      | .killed code =>
          if s.child = .exited then some { s with point := .returned code, child := .reaped }
          else none
      | _ => none
  | .kill =>
      match s.point with
      | .waiting code killAt =>
          if killAt ≤ s.now then some { s with point := .killed code } else none
      | _ => none
  | .dies =>
      match s.point with
      | .killed _ => if s.child = .running then some { s with child := .exited } else none
      | _ => none

def Life.start (now : Nat) : Life := ⟨now, .loadDns, .none, .idle, false⟩

/-! ## What a step can do -/

inductive Lived (noAutolaunch : Bool) (s : Life) : LifeLabel → Life → Prop where
  | tick : Lived noAutolaunch s .tick { s with now := s.now + 1 }
  | signal : Lived noAutolaunch s .signal { s with signalled := true }
  | childExits : s.child = .running →
      Lived noAutolaunch s .childExits { s with child := .exited }
  | serveEnds : s.serve.live = true → Lived noAutolaunch s .serveEnds { s with serve := .ended }
  | cancelled : s.serve = .cancelling →
      Lived noAutolaunch s .cancelled { s with serve := .aborted }
  | checked {next : LifePoint} : nextCheck s.point = some next →
      Lived noAutolaunch s (.check true) { s with point := next }
  | refused {next : LifePoint} : nextCheck s.point = some next →
      Lived noAutolaunch s (.check false) { s with point := .returned 1 }
  | noAutolaunch : s.point = .spawn → noAutolaunch = true →
      Lived noAutolaunch s .noAutolaunch { s with point := .starting }
  | spawned : s.point = .spawn → noAutolaunch = false →
      Lived noAutolaunch s (.spawn true)
        { s with point := .polling (s.now + readyTimeout), child := .running }
  | notSpawned : s.point = .spawn → noAutolaunch = false →
      Lived noAutolaunch s (.spawn false) { s with point := .returned 1 }
  | poll {deadline : Nat} : s.point = .polling deadline → s.now < deadline →
      Lived noAutolaunch s .poll { s with point := .connecting deadline (s.now + connectTimeout) }
  | giveUp {deadline : Nat} : s.point = .polling deadline → deadline ≤ s.now →
      Lived noAutolaunch s .poll { s with point := .notReady }
  | connected {deadline fireAt : Nat} : s.point = .connecting deadline fireAt →
      Lived noAutolaunch s (.connect true) { s with point := .starting }
  | notConnected {deadline fireAt : Nat} : s.point = .connecting deadline fireAt →
      Lived noAutolaunch s (.connect false)
        { s with point := .sleeping deadline (s.now + pollInterval) }
  | elapse {deadline fireAt : Nat} : s.point = .connecting deadline fireAt → fireAt ≤ s.now →
      Lived noAutolaunch s .elapse { s with point := .sleeping deadline (s.now + pollInterval) }
  | wake {deadline wakeAt : Nat} : s.point = .sleeping deadline wakeAt → wakeAt ≤ s.now →
      Lived noAutolaunch s .wake { s with point := .polling deadline }
  | abandon : s.point = .notReady →
      Lived noAutolaunch s .abandon { s with point := .terminating 1 }
  | start : s.point = .starting →
      Lived noAutolaunch s .start { s with point := .select, serve := .accepting }
  | selectSignal : s.point = .select → s.signalled = true →
      Lived noAutolaunch s .selectSignal { s with point := .aborting, signalled := false }
  | selectServe : s.point = .select → s.serve = .ended →
      Lived noAutolaunch s .selectServe { s with point := .aborting }
  | abort : s.point = .aborting →
      Lived noAutolaunch s .abort
        { s with
          point := .terminating 0
          serve := if s.serve = .accepting then .cancelling else s.serve }
  | noChild {code : Nat} : s.point = .terminating code → s.child = .none ∨ s.child = .reaped →
      Lived noAutolaunch s .terminate { s with point := .returned code }
  | terminate {code : Nat} : s.point = .terminating code → s.child ≠ .none → s.child ≠ .reaped →
      Lived noAutolaunch s .terminate { s with point := .waiting code (s.now + killGrace) }
  | reapWaiting {code killAt : Nat} : s.point = .waiting code killAt → s.child = .exited →
      Lived noAutolaunch s .reap { s with point := .returned code, child := .reaped }
  | reapKilled {code : Nat} : s.point = .killed code → s.child = .exited →
      Lived noAutolaunch s .reap { s with point := .returned code, child := .reaped }
  | kill {code killAt : Nat} : s.point = .waiting code killAt → killAt ≤ s.now →
      Lived noAutolaunch s .kill { s with point := .killed code }
  | dies {code : Nat} : s.point = .killed code → s.child = .running →
      Lived noAutolaunch s .dies { s with child := .exited }

variable {noAutolaunch : Bool} {s next : Life} {label : LifeLabel}

theorem lived_of_lifeStep (taken : lifeStep noAutolaunch s label = some next) :
    Lived noAutolaunch s label next := by
  cases label with
  | tick =>
      cases taken
      exact .tick
  | signal =>
      cases taken
      exact .signal
  | childExits =>
      simp only [lifeStep] at taken
      split at taken <;> cases taken
      exact .childExits ‹_›
  | serveEnds =>
      simp only [lifeStep] at taken
      split at taken <;> cases taken
      exact .serveEnds ‹_›
  | cancelled =>
      simp only [lifeStep] at taken
      split at taken <;> cases taken
      exact .cancelled ‹_›
  | check succeeds =>
      simp only [lifeStep] at taken
      split at taken <;> cases taken
      next here =>
      cases succeeds with
      | true => exact .checked here
      | false => exact .refused here
  | noAutolaunch =>
      simp only [lifeStep] at taken
      split at taken <;> cases taken
      next enabled => exact .noAutolaunch enabled.1 enabled.2
  | spawn succeeds =>
      simp only [lifeStep] at taken
      split at taken
      · next enabled =>
        cases succeeds with
        | true =>
            cases taken
            exact .spawned enabled.1 enabled.2
        | false =>
            cases taken
            exact .notSpawned enabled.1 enabled.2
      · cases taken
  | poll =>
      simp only [lifeStep] at taken
      split at taken
      · split at taken <;> cases taken
        · exact .poll ‹_› ‹_›
        · exact .giveUp ‹_› (Nat.not_lt.mp ‹_›)
      · cases taken
  | connect succeeds =>
      simp only [lifeStep] at taken
      split at taken <;> cases taken
      cases succeeds with
      | true => exact .connected ‹_›
      | false => exact .notConnected ‹_›
  | elapse =>
      simp only [lifeStep] at taken
      split at taken
      · split at taken <;> cases taken
        exact .elapse ‹_› ‹_›
      · cases taken
  | wake =>
      simp only [lifeStep] at taken
      split at taken
      · split at taken <;> cases taken
        exact .wake ‹_› ‹_›
      · cases taken
  | abandon =>
      simp only [lifeStep] at taken
      split at taken <;> cases taken
      exact .abandon ‹_›
  | start =>
      simp only [lifeStep] at taken
      split at taken <;> cases taken
      exact .start ‹_›
  | selectSignal =>
      simp only [lifeStep] at taken
      split at taken <;> cases taken
      next enabled => exact .selectSignal enabled.1 enabled.2
  | selectServe =>
      simp only [lifeStep] at taken
      split at taken <;> cases taken
      next enabled => exact .selectServe enabled.1 enabled.2
  | abort =>
      simp only [lifeStep] at taken
      split at taken <;> cases taken
      exact .abort ‹_›
  | terminate =>
      simp only [lifeStep] at taken
      split at taken
      · split at taken <;> cases taken
        · exact .noChild ‹_› ‹_›
        · next here child => exact .terminate here (mt .inl child) (mt .inr child)
      · cases taken
  | reap =>
      simp only [lifeStep] at taken
      split at taken
      · split at taken <;> cases taken
        exact .reapWaiting ‹_› ‹_›
      · split at taken <;> cases taken
        exact .reapKilled ‹_› ‹_›
      · cases taken
  | kill =>
      simp only [lifeStep] at taken
      split at taken
      · split at taken <;> cases taken
        exact .kill ‹_› ‹_›
      · cases taken
  | dies =>
      simp only [lifeStep] at taken
      split at taken
      · split at taken <;> cases taken
        exact .dies ‹_› ‹_›
      · cases taken

/-! ## What holds where -/

/-- Spawned and not reaped. -/
structure Child.Held (child : Child) : Prop where
  spawned : child ≠ .none
  unreaped : child ≠ .reaped

theorem ServeTask.ne_idle_of_live {serve : ServeTask} (live : serve.live = true) :
    serve ≠ .idle := by
  rintro rfl
  cases live

/-- The code with which `run` returns: 0 exactly when it has served, and has
asked for the end of that. -/
def Exits (s : Life) (code : Nat) : Prop :=
  code = 0 ∧ s.serve ≠ .idle ∧ s.serve ≠ .accepting ∨ code = 1 ∧ s.serve = .idle

/-- What `run` relies on where it stands. -/
def Relies (s : Life) : LifePoint → Prop
  | .loadDns | .parseListen | .parseUpstream | .bind | .spawn =>
      s.child = .none ∧ s.serve = .idle
  | .polling _ | .connecting _ _ | .sleeping _ _ | .notReady => s.child.Held ∧ s.serve = .idle
  | .starting => s.child ≠ .reaped ∧ s.serve = .idle
  | .select | .aborting => s.child ≠ .reaped ∧ s.serve ≠ .idle
  | .terminating code => s.child ≠ .reaped ∧ Exits s code
  | .waiting code _ | .killed code => s.child.Held ∧ Exits s code
  | .returned code => (s.child = .none ∨ s.child = .reaped) ∧ Exits s code

/-- Only that a child is there, is reaped, and that there was a `serve` task matters. -/
theorem Relies.congr {point : LifePoint} (relies : Relies s point)
    (spawned : next.child = .none ↔ s.child = .none)
    (reaped : next.child = .reaped ↔ s.child = .reaped)
    (served : next.serve = .idle ↔ s.serve = .idle)
    (accepts : next.serve = .accepting → s.serve = .accepting) : Relies next point := by
  have held : s.child.Held → next.child.Held := fun held =>
    ⟨mt spawned.mp held.spawned, mt reaped.mp held.unreaped⟩
  have exits (code : Nat) : Exits s code → Exits next code :=
    Or.imp (And.imp_right (And.imp (mt served.mp) (mt accepts))) (And.imp_right served.mpr)
  cases point with
  | loadDns | parseListen | parseUpstream | bind | spawn =>
      exact ⟨spawned.mpr relies.1, served.mpr relies.2⟩
  | polling _ | connecting _ _ | sleeping _ _ | notReady =>
      exact ⟨held relies.1, served.mpr relies.2⟩
  | starting => exact ⟨mt reaped.mp relies.1, served.mpr relies.2⟩
  | select | aborting => exact ⟨mt reaped.mp relies.1, mt served.mp relies.2⟩
  | terminating code => exact ⟨mt reaped.mp relies.1, exits code relies.2⟩
  | waiting code _ | killed code => exact ⟨held relies.1, exits code relies.2⟩
  | returned code => exact ⟨relies.1.imp spawned.mpr reaped.mpr, exits code relies.2⟩

theorem relies_of_nextCheck {point after : LifePoint} (here : nextCheck point = some after)
    (relies : Relies s point) : s.child = .none ∧ s.serve = .idle ∧ Relies s after := by
  cases point <;> cases here <;> exact ⟨relies.1, relies.2, relies⟩

theorem Lived.relies (lived : Lived noAutolaunch s label next) (relies : Relies s s.point) :
    Relies next next.point := by
  cases lived with
  | tick | signal => exact relies.congr Iff.rfl Iff.rfl Iff.rfl id
  | childExits running | dies _ running =>
      exact relies.congr (by simp [running]) (by simp [running]) Iff.rfl id
  | serveEnds live =>
      exact relies.congr Iff.rfl Iff.rfl (by simp [ServeTask.ne_idle_of_live live])
        ServeTask.noConfusion
  | cancelled asked =>
      exact relies.congr Iff.rfl Iff.rfl (by simp [asked]) ServeTask.noConfusion
  | checked here =>
      exact (relies_of_nextCheck here relies).2.2.congr Iff.rfl Iff.rfl Iff.rfl id
  | refused here =>
      obtain ⟨none, idle, -⟩ := relies_of_nextCheck here relies
      exact ⟨.inl none, .inr ⟨rfl, idle⟩⟩
  | noAutolaunch here _ =>
      rw [here] at relies
      have unspawned : s.child ≠ .reaped := by
        rw [relies.1]
        exact Child.noConfusion
      exact ⟨unspawned, relies.2⟩
  | spawned here _ =>
      rw [here] at relies
      exact ⟨⟨Child.noConfusion, Child.noConfusion⟩, relies.2⟩
  | notSpawned here _ =>
      rw [here] at relies
      exact ⟨.inl relies.1, .inr ⟨rfl, relies.2⟩⟩
  | poll here _ | giveUp here _ | notConnected here | elapse here _ | wake here _ =>
      rw [here] at relies
      exact relies
  | connected here =>
      rw [here] at relies
      exact ⟨relies.1.unreaped, relies.2⟩
  | abandon here =>
      rw [here] at relies
      exact ⟨relies.1.unreaped, .inr ⟨rfl, relies.2⟩⟩
  | start here =>
      rw [here] at relies
      exact ⟨relies.1, ServeTask.noConfusion⟩
  | selectSignal here _ | selectServe here _ =>
      rw [here] at relies
      exact relies
  | abort here =>
      rw [here] at relies
      refine ⟨relies.1, .inl ⟨rfl, ?_⟩⟩
      dsimp only
      split
      · exact ⟨ServeTask.noConfusion, ServeTask.noConfusion⟩
      · exact ⟨relies.2, ‹_›⟩
  | noChild here free =>
      rw [here] at relies
      exact ⟨free, relies.2⟩
  | terminate here spawned unreaped =>
      rw [here] at relies
      exact ⟨⟨spawned, unreaped⟩, relies.2⟩
  | reapWaiting here _ | reapKilled here _ =>
      rw [here] at relies
      exact ⟨.inr rfl, relies.2⟩
  | kill here _ =>
      rw [here] at relies
      exact relies

/-- `terminate` does not wait longer than it means to. -/
def Soon (s : Life) : Prop :=
  ∀ code killAt, s.point = .waiting code killAt → killAt ≤ s.now + killGrace

theorem Lived.soon (lived : Lived noAutolaunch s label next) (soon : Soon s) : Soon next := by
  intro code killAt here
  cases lived with
  | tick => exact Nat.le_trans (soon code killAt here) (Nat.add_le_add_right (Nat.le_succ _) _)
  | signal | childExits _ | serveEnds _ | cancelled _ | dies _ _ => exact soon code killAt here
  | checked checks =>
      dsimp only at here
      rw [here] at checks
      cases point : s.point <;> rw [point] at checks <;> cases checks
  | terminate _ _ _ =>
      cases here
      exact Nat.le_refl _
  | _ => cases here

variable {labels : List LifeLabel} {now : Nat}

theorem run_relies (runs : run (lifeStep noAutolaunch) (.start now) labels = some s) :
    Relies s s.point := by
  have initially : Relies (.start now) (Life.start now).point := ⟨rfl, rfl⟩
  exact run_invariant (fun s => Relies s s.point) initially
    (fun _ _ _ relies taken => (lived_of_lifeStep taken).relies relies) runs

theorem run_soon (runs : run (lifeStep noAutolaunch) (.start now) labels = some s) : Soon s :=
  run_invariant Soon (fun _ _ here => LifePoint.noConfusion here)
    (fun _ _ _ soon taken => (lived_of_lifeStep taken).soon soon) runs

/-! ## What the labels say of the state -/

/-- Spawning makes the child and nothing takes it back, and the same for `serve`. -/
theorem Lived.made (lived : Lived noAutolaunch s label next) (relies : Relies s s.point) :
    (next.child ≠ .none ↔ s.child ≠ .none ∨ label = .spawn true) ∧
      (next.serve ≠ .idle ↔ s.serve ≠ .idle ∨ label = .start) := by
  cases lived with
  | childExits running | dies _ running => simp [running]
  | serveEnds live => simp [ServeTask.ne_idle_of_live live]
  | cancelled asked => simp [asked]
  | reapWaiting here _ | reapKilled here _ =>
      rw [here] at relies
      simp [relies.1.spawned]
  | abort _ =>
      refine ⟨by simp, ?_⟩
      by_cases accepting : s.serve = .accepting <;> simp [accepting]
  | _ => simp

/-- What a run has made, and with which code it returns. -/
theorem run_made (runs : run (lifeStep noAutolaunch) (.start now) labels = some s) :
    (s.child ≠ .none ↔ .spawn true ∈ labels) ∧ (s.serve ≠ .idle ↔ .start ∈ labels) := by
  induction labels using List.reverseRecOn generalizing s with
  | nil =>
      cases runs
      simp [Life.start]
  | append_singleton labels label ih =>
      obtain ⟨middle, before, taken⟩ := run_concat_eq_some runs
      obtain ⟨spawned, served⟩ := ih before
      obtain ⟨makesChild, makesServe⟩ := (lived_of_lifeStep taken).made (run_relies before)
      simp only [List.mem_append, List.mem_singleton]
      exact ⟨by rw [makesChild, spawned, eq_comm (a := label)],
        by rw [makesServe, served, eq_comm (a := label)]⟩

theorem Lived.asked (lived : Lived noAutolaunch s label next)
    (cancelling : next.serve = .cancelling) : s.serve = .cancelling ∨ label = .abort := by
  cases lived with
  | start _ | serveEnds _ | cancelled _ => cases cancelling
  | abort _ => exact .inr rfl
  | _ => exact .inl cancelling

theorem run_asked (runs : run (lifeStep noAutolaunch) (.start now) labels = some s)
    (cancelling : s.serve = .cancelling) : .abort ∈ labels := by
  induction labels using List.reverseRecOn generalizing s with
  | nil =>
      cases runs
      cases cancelling
  | append_singleton labels label ih =>
      obtain ⟨middle, before, taken⟩ := run_concat_eq_some runs
      rcases (lived_of_lifeStep taken).asked cancelling with already | rfl
      · exact List.mem_append_left _ (ih before already)
      · exact List.mem_append_right _ (List.mem_singleton_self _)

/-- `run` returns only when the child it has spawned is reaped and a `serve` task
that still runs has been asked to stop, and with 0 exactly when it has come to
serve. -/
theorem run_leaves_no_child {code : Nat}
    (runs : run (lifeStep noAutolaunch) (.start now) labels = some s)
    (returned : s.point = .returned code) :
    (.spawn true ∈ labels → s.child = .reaped) ∧ (s.serve.live = true → .abort ∈ labels) ∧
      (code = 0 ∧ .start ∈ labels ∨ code = 1 ∧ .start ∉ labels) := by
  obtain ⟨spawned, served⟩ := run_made runs
  have relies := run_relies runs
  rw [returned] at relies
  refine ⟨fun launched => relies.1.resolve_left (spawned.mpr launched), fun live => ?_, ?_⟩
  · rcases relies.2 with ⟨-, -, unasked⟩ | ⟨-, idle⟩
    · cases serve : s.serve with
      | accepting => exact absurd serve unasked
      | cancelling => exact run_asked runs serve
      | idle | ended | aborted =>
          rw [serve] at live
          cases live
    · exact absurd idle (ServeTask.ne_idle_of_live live)
  · refine relies.2.imp (And.imp_right fun after => served.mp after.1) (And.imp_right ?_)
    exact fun idle started => served.mpr started idle

/-- The checks before the launch. -/
def checksPass : List LifeLabel := List.replicate 4 (.check true)

/-- A child that honours SIGTERM. -/
def obedient : List LifeLabel :=
  checksPass ++ [.spawn true, .poll, .connect true, .start, .signal, .selectSignal, .abort,
    .terminate, .cancelled, .childExits, .reap]

theorem run_leaves_no_child_obedient :
    ∃ s, run (lifeStep false) (.start 0) obedient = some s ∧ s.point = .returned 0 ∧
      s.child = .reaped := by
  have runs : run (lifeStep false) (.start 0) obedient =
      some ⟨0, .returned 0, .reaped, .aborted, false⟩ := by decide +kernel
  exact ⟨_, runs, rfl, (run_leaves_no_child runs rfl).1 (by decide)⟩

-- Without a child `run` may have returned before the task notices.
example : run (lifeStep true) (.start 0)
    (checksPass ++ [.noAutolaunch, .start, .signal, .selectSignal, .abort, .terminate]) =
      some ⟨0, .returned 0, .none, .cancelling, false⟩ := by decide +kernel

/-! ## What is not noticed -/

/-- The labels that look for a signal or for the end of the child. -/
def LifeLabel.asks : LifeLabel → Bool
  | .selectSignal | .reap | .dies => true
  | _ => false

def LifeLabel.heard : LifeLabel → Bool
  | .signal | .childExits => false
  | _ => true

/-- Every other step is the same whatever came of a signal or of the child. -/
theorem Lived.deaf (lived : Lived noAutolaunch s label next) (unasked : label.asks = false)
    (heard : label.heard = true) {child : Child} (spawned : child = .none ↔ s.child = .none)
    (reaped : child = .reaped ↔ s.child = .reaped) (signalled : Bool) :
    lifeStep noAutolaunch { s with child, signalled } label =
      some { next with child := if label = .spawn true then .running else child, signalled } := by
  cases lived with
  | signal | childExits _ => cases heard
  | dies _ _ | selectSignal _ _ | reapWaiting _ _ | reapKilled _ _ => cases unasked
  | tick => rfl
  | serveEnds live => simp [lifeStep, live]
  | cancelled asked => simp [lifeStep, asked]
  | checked here | refused here => simp [lifeStep, here]
  | noAutolaunch here launches | spawned here launches | notSpawned here launches =>
      simp [lifeStep, here, launches]
  | poll here before => simp [lifeStep, here, before]
  | giveUp here passed => simp [lifeStep, here, Nat.not_lt.mpr passed]
  | connected here | notConnected here | abandon here | start here | abort here =>
      simp [lifeStep, here]
  | elapse here due | wake here due | kill here due | selectServe here due =>
      simp [lifeStep, here, due]
  | noChild here free => simp [lifeStep, here, spawned, reaped, free]
  | terminate here held unreaped => simp [lifeStep, here, spawned, reaped, held, unreaped]

/-- The same but for a signal and for whether the child runs. -/
def Life.Alike (s s' : Life) : Prop :=
  ∃ child signalled, (child = .none ↔ s.child = .none) ∧ (child = .reaped ↔ s.child = .reaped) ∧
    s' = { s with child, signalled }

theorem Lived.alike {s' : Life} (lived : Lived noAutolaunch s label next)
    (unheard : label.heard = false) (alike : s.Alike s') : next.Alike s' := by
  obtain ⟨child, signalled, spawned, reaped, rfl⟩ := alike
  cases lived with
  | signal => exact ⟨child, signalled, spawned, reaped, rfl⟩
  | childExits running =>
      rw [running] at spawned reaped
      exact ⟨child, signalled, spawned.trans (by simp), reaped.trans (by simp), rfl⟩
  | _ => cases unheard

theorem Lived.made_alike (lived : Lived noAutolaunch s label next) (unasked : label.asks = false)
    (heard : label.heard = true) {child : Child} (spawned : child = .none ↔ s.child = .none)
    (reaped : child = .reaped ↔ s.child = .reaped) (signalled : Bool) :
    next.Alike { next with
      child := if label = .spawn true then .running else child, signalled } := by
  cases lived with
  | signal | childExits _ => cases heard
  | dies _ _ | selectSignal _ _ | reapWaiting _ _ | reapKilled _ _ => cases unasked
  | _ => exact ⟨_, signalled, by simp [spawned], by simp [reaped], rfl⟩

/-- Until the `select!` or `terminate` looks, neither a signal nor the end of
the child changes anything. -/
theorem deaf_until_asked (unasked : ∀ label ∈ labels, label.asks = false)
    (runs : run (lifeStep noAutolaunch) (.start now) labels = some s) :
    ∃ s', run (lifeStep noAutolaunch) (.start now) (labels.filter LifeLabel.heard) = some s' ∧
      s'.now = s.now ∧ s'.point = s.point ∧ s'.serve = s.serve := by
  have alike : (Life.start now).Alike (.start now) := ⟨_, _, Iff.rfl, Iff.rfl, rfl⟩
  obtain ⟨s', runs', child, signalled, -, -, rfl⟩ := run_filter Life.Alike LifeLabel.heard
    (fun _ _ _ _ _ unheard alike taken => (lived_of_lifeStep taken).alike unheard alike)
    (fun state state' label next member heard alike taken => by
      obtain ⟨child, signalled, spawned, reaped, rfl⟩ := alike
      have lived := lived_of_lifeStep taken
      exact ⟨_, lived.deaf (unasked label member) heard spawned reaped signalled,
        lived.made_alike (unasked label member) heard spawned reaped signalled⟩)
    alike runs
  exact ⟨_, runs', rfl, rfl, rfl⟩

theorem deaf_until_asked_serving :
    ∃ s', run (lifeStep false) (.start 0)
        (checksPass ++ [.spawn true, .poll, .connect true, .start]) = some s' ∧
      s'.point = .select := by
  have runs : run (lifeStep false) (.start 0)
      (checksPass ++ [.spawn true, .signal, .poll, .childExits, .connect true, .start]) =
        some ⟨0, .select, .exited, .accepting, true⟩ := by decide +kernel
  obtain ⟨s', runs', -, point, -⟩ := deaf_until_asked (by decide) runs
  exact ⟨s', runs', point⟩

/-! ## How long it takes -/

/-- The labels that wait for nobody once they are enabled.  SIGKILL is one. -/
def LifeLabel.prompt : LifeLabel → Bool
  | .tick | .signal | .childExits | .serveEnds | .cancelled | .connect _ => false
  | _ => true

/-- Nothing is left to do but to wait. -/
def Life.AtRest (noAutolaunch : Bool) (s : Life) : Prop :=
  ∀ label : LifeLabel, label.prompt = true → lifeStep noAutolaunch s label = none

def LifeLabel.all : List LifeLabel :=
  [.tick, .signal, .childExits, .serveEnds, .cancelled, .check false, .check true, .noAutolaunch,
    .spawn false, .spawn true, .poll, .connect false, .connect true, .elapse, .wake, .abandon,
    .start, .selectSignal, .selectServe, .abort, .terminate, .reap, .kill, .dies]

theorem LifeLabel.mem_all (label : LifeLabel) : label ∈ LifeLabel.all := by
  cases label with
  | check succeeds | spawn succeeds | connect succeeds => cases succeeds <;> simp [LifeLabel.all]
  | _ => simp [LifeLabel.all]

instance (noAutolaunch : Bool) (s : Life) : Decidable (s.AtRest noAutolaunch) :=
  decidable_of_iff
    (∀ label ∈ LifeLabel.all, label.prompt = true → lifeStep noAutolaunch s label = none)
    ⟨fun stuck label => stuck label label.mem_all, fun stuck label _ => stuck label⟩

/-- Time passes only where nothing else is left to do. -/
def Life.Prompt (noAutolaunch : Bool) (s : Life) (label : LifeLabel) : Prop :=
  label = .tick → s.AtRest noAutolaunch

instance (noAutolaunch : Bool) (s : Life) (label : LifeLabel) :
    Decidable (Life.Prompt noAutolaunch s label) :=
  inferInstanceAs (Decidable (label = .tick → s.AtRest noAutolaunch))

/-- Where `run` waits, and for what. -/
def Rests (s : Life) : LifePoint → Prop
  | .connecting _ fireAt => s.now < fireAt
  | .sleeping _ wakeAt => s.now < wakeAt
  | .select => s.signalled = false
  | .waiting _ killAt => s.now < killAt
  | .returned _ => True
  | _ => False

theorem rests_of_atRest (atRest : s.AtRest noAutolaunch) (relies : Relies s s.point) :
    Rests s s.point := by
  cases here : s.point with
  | loadDns | parseListen | parseUpstream | bind =>
      simpa [lifeStep, here, nextCheck] using atRest (.check true) rfl
  | spawn =>
      cases noAutolaunch with
      | true => simpa [lifeStep, here] using atRest .noAutolaunch rfl
      | false => simpa [lifeStep, here] using atRest (.spawn true) rfl
  | polling deadline =>
      have stuck := atRest .poll rfl
      simp only [lifeStep, here] at stuck
      split at stuck <;> cases stuck
  | connecting deadline fireAt => simpa [lifeStep, here, Rests] using atRest .elapse rfl
  | sleeping deadline wakeAt => simpa [lifeStep, here, Rests] using atRest .wake rfl
  | notReady => simpa [lifeStep, here] using atRest .abandon rfl
  | starting => simpa [lifeStep, here] using atRest .start rfl
  | select => simpa [lifeStep, here, Rests] using atRest .selectSignal rfl
  | aborting => simpa [lifeStep, here] using atRest .abort rfl
  | terminating code =>
      have stuck := atRest .terminate rfl
      simp only [lifeStep, here] at stuck
      split at stuck <;> cases stuck
  | waiting code killAt => simpa [lifeStep, here, Rests] using atRest .kill rfl
  | killed code =>
      rw [here] at relies
      cases child : s.child with
      | none => exact relies.1.spawned child
      | reaped => exact relies.1.unreaped child
      | running => simpa [lifeStep, here, child] using atRest .dies rfl
      | exited => simpa [lifeStep, here, child] using atRest .reap rfl
  | returned code => exact trivial

/-- When `wait_ready` has returned, at the latest. -/
def settleBy (launch : Nat) : Nat := launch + readyTimeout + connectTimeout + pollInterval

theorem lt_settleBy (launch : Nat) : launch < settleBy launch := by
  simp only [settleBy, readyTimeout, connectTimeout, pollInterval]
  omega

/-- How late it can be where `run` stands, `launch` being when it began. -/
def Timely (launch : Nat) (s : Life) : LifePoint → Prop
  | .loadDns | .parseListen | .parseUpstream | .bind | .spawn => s.now = launch
  | .polling deadline => deadline = launch + readyTimeout ∧ s.now < settleBy launch
  | .connecting deadline fireAt =>
      deadline = launch + readyTimeout ∧ s.now ≤ fireAt ∧ fireAt < deadline + connectTimeout
  | .sleeping deadline wakeAt =>
      deadline = launch + readyTimeout ∧ s.now ≤ wakeAt ∧ wakeAt < settleBy launch
  | .notReady | .starting => s.now < settleBy launch
  | .select | .aborting | .returned _ => True
  | .terminating _ => s.serve = .idle → s.now < settleBy launch
  | .waiting _ killAt =>
      s.now ≤ killAt ∧ (s.serve = .idle → killAt < settleBy launch + killGrace)
  | .killed _ => s.serve = .idle → s.now < settleBy launch + killGrace

variable {launch : Nat}

/-- Before `wait_ready` has returned, and where it returns to. -/
def LifePoint.settling : LifePoint → Bool
  | .select | .aborting | .terminating _ | .waiting _ _ | .killed _ | .returned _ => false
  | _ => true

theorem Timely.lt_settleBy {point : LifePoint} (timely : Timely launch s point)
    (settling : point.settling = true) : s.now < settleBy launch := by
  cases point with
  | loadDns | parseListen | parseUpstream | bind | spawn =>
      exact Nat.lt_of_le_of_lt (Nat.le_of_eq timely) (Rust.lt_settleBy launch)
  | polling _ => exact timely.2
  | connecting _ fireAt =>
      obtain ⟨rfl, inTime, soon⟩ := timely
      exact Nat.lt_add_right pollInterval (Nat.lt_of_le_of_lt inTime soon)
  | sleeping _ wakeAt => exact Nat.lt_of_le_of_lt timely.2.1 timely.2.2
  | notReady | starting => exact timely
  | _ => cases settling

theorem Timely.congr {point : LifePoint} (timely : Timely launch s point) (now : next.now = s.now)
    (served : next.serve = .idle → s.serve = .idle) : Timely launch next point := by
  cases point with
  | select | aborting | returned _ => exact trivial
  | terminating _ | killed _ =>
      intro idle
      rw [now]
      exact timely (served idle)
  | waiting _ killAt =>
      rw [Timely, now]
      exact ⟨timely.1, fun idle => timely.2 (served idle)⟩
  | _ =>
      simp only [Timely, now]
      exact timely

/-- A millisecond may pass where `run` waits. -/
theorem Timely.tick {point : LifePoint} (timely : Timely launch s point) (rests : Rests s point) :
    Timely launch { s with now := s.now + 1 } point := by
  cases point with
  | connecting _ _ | sleeping _ _ => exact ⟨timely.1, rests, timely.2.2⟩
  | waiting _ _ => exact ⟨rests, timely.2⟩
  | select | returned _ => exact trivial
  | _ => exact rests.elim

/-- `abort` leaves no task that has not begun. -/
theorem not_idle_of_abort (relies : Relies s .aborting) :
    (if s.serve = .accepting then .cancelling else s.serve : ServeTask) ≠ .idle := by
  split
  · exact ServeTask.noConfusion
  · exact relies.2

theorem timely_of_nextCheck {point after : LifePoint} (here : nextCheck point = some after)
    (timely : Timely launch s point) : Timely launch s after := by
  cases point <;> cases here <;> exact timely

theorem Lived.timely (lived : Lived noAutolaunch s label next) (relies : Relies s s.point)
    (prompt : Life.Prompt noAutolaunch s label) (timely : Timely launch s s.point) :
    Timely launch next next.point := by
  cases lived with
  | tick => exact timely.tick (rests_of_atRest (prompt rfl) relies)
  | signal | childExits _ | dies _ _ => exact timely.congr rfl id
  | serveEnds _ | cancelled _ => exact timely.congr rfl fun idle => by cases idle
  | checked here => exact (timely_of_nextCheck here timely).congr rfl id
  | refused _ | notSpawned _ _ | noChild _ _ | reapWaiting _ _ | reapKilled _ _ => exact trivial
  | noAutolaunch here _ =>
      rw [here] at timely
      exact timely.lt_settleBy rfl
  | spawned here _ =>
      rw [here] at timely
      exact ⟨congrArg (· + readyTimeout) timely, timely.lt_settleBy rfl⟩
  | poll here before =>
      rw [here] at timely
      exact ⟨timely.1, Nat.le_add_right _ _, Nat.add_lt_add_right before _⟩
  | giveUp here _ =>
      rw [here] at timely
      exact timely.2
  | connected here =>
      rw [here] at timely
      exact timely.lt_settleBy rfl
  | notConnected here | elapse here _ =>
      rw [here] at timely
      obtain ⟨rfl, inTime, soon⟩ := timely
      exact ⟨rfl, Nat.le_add_right _ _, Nat.add_lt_add_right (Nat.lt_of_le_of_lt inTime soon) _⟩
  | wake here _ =>
      rw [here] at timely
      exact ⟨timely.1, timely.lt_settleBy rfl⟩
  | abandon here =>
      rw [here] at timely
      exact fun _ => timely
  | start here | selectSignal here _ | selectServe here _ => exact trivial
  | abort here =>
      rw [here] at relies
      exact fun idle => absurd idle (not_idle_of_abort relies)
  | terminate here _ _ =>
      rw [here] at timely
      exact ⟨Nat.le_add_right _ _, fun idle => Nat.add_lt_add_right (timely idle) _⟩
  | kill here _ =>
      rw [here] at timely
      exact fun idle => Nat.lt_of_le_of_lt timely.1 (timely.2 idle)

theorem run_timely
    (prompt : ∀ entry ∈ history (lifeStep noAutolaunch) (.start now) labels,
      Life.Prompt noAutolaunch entry.1 entry.2)
    (runs : run (lifeStep noAutolaunch) (.start now) labels = some s) :
    Timely now s s.point := by
  have initially : Relies (.start now) (Life.start now).point ∧
      Timely now (.start now) (Life.start now).point := ⟨⟨rfl, rfl⟩, rfl⟩
  refine (run_invariant_of_forall (fun s => Relies s s.point ∧ Timely now s s.point)
    (Life.Prompt noAutolaunch) initially ?_ prompt runs).2
  rintro state label next ⟨relies, timely⟩ prompt taken
  have lived := lived_of_lifeStep taken
  exact ⟨lived.relies relies, lived.timely relies prompt timely⟩

/-- Before it serves, and after it has given up. -/
theorem Timely.lt_of_unserved {point : LifePoint} (timely : Timely launch s point)
    (relies : Relies s point) (idle : s.serve = .idle) :
    (∃ code, point = .returned code) ∨ s.now < settleBy launch + killGrace := by
  cases point with
  | returned code => exact .inl ⟨code, rfl⟩
  | select | aborting => exact absurd idle relies.2
  | terminating _ => exact .inr (Nat.lt_add_right _ (timely idle))
  | waiting _ killAt => exact .inr (Nat.lt_of_le_of_lt timely.1 (timely.2 idle))
  | killed _ => exact .inr (timely idle)
  | _ => exact .inr (Nat.lt_add_right _ (timely.lt_settleBy rfl))

/-- A run that does not come to serve returns within 21.2 seconds, when it waits
only where nothing else is left to do. -/
theorem gives_up_within (unserved : .start ∉ labels)
    (prompt : ∀ entry ∈ history (lifeStep noAutolaunch) (.start now) labels,
      Life.Prompt noAutolaunch entry.1 entry.2)
    (runs : run (lifeStep noAutolaunch) (.start now) labels = some s) :
    (∃ code, s.point = .returned code) ∨ s.now < now + 21200 := by
  have idle : s.serve = .idle := Decidable.not_not.mp (mt (run_made runs).2.mp unserved)
  exact (run_timely prompt runs).lt_of_unserved (run_relies runs) idle

/-- The launch fails after a connection was refused. -/
def hopeless : List LifeLabel :=
  checksPass ++ [.spawn true, .poll, .tick, .connect false, .tick]

theorem gives_up_within_hopeless :
    ∃ s, run (lifeStep false) (.start 7) hopeless = some s ∧
      ((∃ code, s.point = .returned code) ∨ s.now < 7 + 21200) := by
  have runs : run (lifeStep false) (.start 7) hopeless =
      some ⟨9, .sleeping 15007 208, .running, .idle, false⟩ := by decide +kernel
  exact ⟨_, runs, gives_up_within (by decide) (by decide +kernel) runs⟩

/-! ## After a signal -/

/-- How late it can be where `run` stands once it has a signal. -/
def Due (due : Nat) (s : Life) : LifePoint → Prop
  | .select => s.signalled = true ∧ s.now ≤ due
  | .aborting | .terminating _ => s.now ≤ due
  | .waiting _ killAt => s.now ≤ killAt ∧ killAt ≤ due + killGrace
  | .killed _ => s.now ≤ due + killGrace
  | .returned _ => True
  | _ => s.signalled = true

variable {due : Nat}

theorem Due.congr {point : LifePoint} (holds : Due due s point) (now : next.now = s.now)
    (signalled : s.signalled = true → next.signalled = true) : Due due next point := by
  cases point with
  | select => exact ⟨signalled holds.1, now ▸ holds.2⟩
  | aborting | terminating _ | waiting _ _ | killed _ =>
      simp only [Due, now]
      exact holds
  | returned _ => exact trivial
  | _ => exact signalled holds

theorem Due.tick {point : LifePoint} (holds : Due due s point) (rests : Rests s point) :
    Due due { s with now := s.now + 1 } point := by
  cases point with
  | select => exact absurd holds.1 (by rw [rests]; exact Bool.false_ne_true)
  | waiting _ _ => exact ⟨rests, holds.2⟩
  | connecting _ _ | sleeping _ _ => exact holds
  | returned _ => exact trivial
  | _ => exact rests.elim

theorem due_of_nextCheck {point after : LifePoint} (here : nextCheck point = some after)
    (holds : Due due s point) : Due due s after := by
  cases point <;> cases here <;> exact holds

theorem Lived.keeps_due (settled : settleBy launch ≤ due + 1)
    (lived : Lived noAutolaunch s label next) (relies : Relies s s.point)
    (timely : Timely launch s s.point) (prompt : Life.Prompt noAutolaunch s label)
    (holds : Due due s s.point) : Due due next next.point := by
  cases lived with
  | tick => exact holds.tick (rests_of_atRest (prompt rfl) relies)
  | signal => exact holds.congr rfl fun _ => rfl
  | childExits _ | dies _ _ | serveEnds _ | cancelled _ => exact holds.congr rfl id
  | checked here => exact (due_of_nextCheck here holds).congr rfl id
  | refused _ | notSpawned _ _ | noChild _ _ | reapWaiting _ _ | reapKilled _ _ => exact trivial
  | noAutolaunch here _ | spawned here _ | poll here _ | giveUp here _ | connected here
  | notConnected here | elapse here _ | wake here _ =>
      rw [here] at holds
      exact holds
  | start here =>
      rw [here] at holds timely
      exact ⟨holds, Nat.le_of_lt_succ (Nat.lt_of_lt_of_le timely settled)⟩
  | abandon here =>
      rw [here] at timely
      exact Nat.le_of_lt_succ (Nat.lt_of_lt_of_le timely settled)
  | selectSignal here _ | selectServe here _ =>
      rw [here] at holds
      exact holds.2
  | abort here =>
      rw [here] at holds
      exact holds
  | terminate here _ _ =>
      rw [here] at holds
      exact ⟨Nat.le_add_right _ _, Nat.add_le_add_right holds _⟩
  | kill here _ =>
      rw [here] at holds
      exact Nat.le_trans holds.1 holds.2

/-- A signal is in time for everything that is still to be done. -/
theorem due_of_signal (soon : Soon s) {point : LifePoint} (here : s.point = point)
    (timely : Timely launch s point) (later : s.now ≤ due) :
    Due due { s with signalled := true } point := by
  cases point with
  | select => exact ⟨rfl, later⟩
  | aborting | terminating _ => exact later
  | waiting code killAt =>
      exact ⟨timely.1, Nat.le_trans (soon code killAt here) (Nat.add_le_add_right later _)⟩
  | killed _ => exact Nat.le_add_right_of_le later
  | returned _ => exact trivial
  | _ => exact rfl

theorem Due.now_le {point : LifePoint} (holds : Due due s point) (timely : Timely launch s point)
    (settled : settleBy launch ≤ due + 1) :
    (∃ code, point = .returned code) ∨ s.now ≤ due + killGrace := by
  cases point with
  | returned code => exact .inl ⟨code, rfl⟩
  | waiting _ killAt => exact .inr (Nat.le_trans holds.1 holds.2)
  | killed _ => exact .inr holds
  | select => exact .inr (Nat.le_add_right_of_le holds.2)
  | aborting | terminating _ => exact .inr (Nat.le_add_right_of_le holds)
  | _ =>
      have early : s.now < settleBy launch := timely.lt_settleBy rfl
      exact .inr (Nat.le_add_right_of_le (Nat.le_of_lt_succ (Nat.lt_of_lt_of_le early settled)))

theorem returned_or_le_of_signal {caught : Life}
    (prompt : ∀ entry ∈ history (lifeStep noAutolaunch) (.start now) labels,
      Life.Prompt noAutolaunch entry.1 entry.2)
    (signalled : (caught, .signal) ∈ history (lifeStep noAutolaunch) (.start now) labels)
    (runs : run (lifeStep noAutolaunch) (.start now) labels = some s) :
    (∃ code, s.point = .returned code) ∨ s.now ≤ max caught.now (now + 16199) + 5000 := by
  obtain ⟨first, second, next, rfl, before, taken, rest⟩ := mem_history runs signalled
  rw [history_append before, history_cons_of_step second taken] at prompt
  have relies := run_relies before
  have timely := run_timely (fun entry inFirst => prompt entry (List.mem_append_left _ inFirst))
    before
  have settled : settleBy now ≤ max caught.now (now + 16199) + 1 :=
    Nat.add_le_add_right (Nat.le_max_right _ _) 1
  have lived := lived_of_lifeStep taken
  have onTime : Life.Prompt noAutolaunch caught .signal := fun ticks => LifeLabel.noConfusion ticks
  have initially : Relies next next.point ∧ Timely now next next.point ∧
      Due (max caught.now (now + 16199)) next next.point := by
    refine ⟨lived.relies relies, lived.timely relies onTime timely, ?_⟩
    cases taken
    exact due_of_signal (run_soon before) rfl timely (Nat.le_max_left _ _)
  have kept := run_invariant_of_forall
    (fun s => Relies s s.point ∧ Timely now s s.point ∧
      Due (max caught.now (now + 16199)) s s.point)
    (Life.Prompt noAutolaunch) initially ?_
    (fun entry member => prompt entry (List.mem_append_right _ (.tail _ member))) rest
  · exact kept.2.2.now_le kept.2.1 settled
  · rintro state label next ⟨relies, timely, holds⟩ prompt taken
    have lived := lived_of_lifeStep taken
    exact ⟨lived.relies relies, lived.timely relies prompt timely,
      lived.keeps_due settled relies timely prompt holds⟩

/-- Wherever `run` stands at a signal, it returns within five seconds of it or
within 21.2 seconds of its begin, when it waits only where nothing else is left
to do. -/
theorem signal_returns_within {caught : Life}
    (prompt : ∀ entry ∈ history (lifeStep noAutolaunch) (.start now) labels,
      Life.Prompt noAutolaunch entry.1 entry.2)
    (signalled : (caught, .signal) ∈ history (lifeStep noAutolaunch) (.start now) labels)
    (runs : run (lifeStep noAutolaunch) (.start now) labels = some s) :
    (∃ code, s.point = .returned code) ∨ s.now ≤ max caught.now (now + 16199) + 5000 :=
  returned_or_le_of_signal prompt signalled runs

theorem signal_returns_within_serving :
    ∃ s, run (lifeStep true) (.start 0)
        (checksPass ++ [.noAutolaunch, .start, .tick, .signal, .selectSignal]) = some s ∧
      ((∃ code, s.point = .returned code) ∨ s.now ≤ max 1 (0 + 16199) + 5000) := by
  have runs : run (lifeStep true) (.start 0)
      (checksPass ++ [.noAutolaunch, .start, .tick, .signal, .selectSignal]) =
        some ⟨1, .aborting, .none, .accepting, false⟩ := by decide +kernel
  have caught : ((⟨1, .select, .none, .accepting, false⟩ : Life), LifeLabel.signal) ∈
      history (lifeStep true) (.start 0)
        (checksPass ++ [.noAutolaunch, .start, .tick, .signal, .selectSignal]) := by
    decide +kernel
  exact ⟨_, runs, signal_returns_within (by decide +kernel) caught runs⟩

/-! ## How long `wait_ready` tries -/

/-- The labels that end an attempt to connect. -/
def LifeLabel.attempt : LifeLabel → Bool
  | .connect _ | .elapse => true
  | _ => false

/-- What `attempts` attempts say of the time. -/
def Tried (attempts : Nat) (s : Life) : LifePoint → Prop
  | .loadDns | .parseListen | .parseUpstream | .bind | .spawn => attempts = 0
  | .polling deadline =>
      deadline + attempts * pollInterval ≤ s.now + readyTimeout ∧ attempts ≤ 75
  | .connecting deadline _ =>
      deadline + attempts * pollInterval ≤ s.now + readyTimeout ∧ attempts < 75
  | .sleeping deadline wakeAt =>
      deadline + attempts * pollInterval ≤ wakeAt + readyTimeout ∧ attempts ≤ 75
  | _ => attempts ≤ 75

variable {attempts : Nat}

theorem Tried.congr {point : LifePoint} (tried : Tried attempts s point)
    (later : s.now ≤ next.now) : Tried attempts next point := by
  cases point with
  | polling _ | connecting _ _ =>
      exact ⟨Nat.le_trans tried.1 (Nat.add_le_add_right later _), tried.2⟩
  | _ => exact tried

theorem tried_of_nextCheck {point after : LifePoint} (here : nextCheck point = some after)
    (tried : Tried attempts s point) : attempts = 0 ∧ Tried attempts s after := by
  cases point <;> cases here <;> exact ⟨tried, tried⟩

theorem Lived.tried (lived : Lived noAutolaunch s label next) (tried : Tried attempts s s.point) :
    Tried (attempts + [label].countP LifeLabel.attempt) next next.point := by
  cases lived with
  | tick => exact tried.congr (Nat.le_succ _)
  | signal | childExits _ | dies _ _ | serveEnds _ | cancelled _ =>
      exact tried.congr (Nat.le_refl _)
  | checked here => exact (tried_of_nextCheck here tried).2.congr (Nat.le_refl _)
  | refused here =>
      obtain ⟨rfl, -⟩ := tried_of_nextCheck here tried
      exact Nat.zero_le _
  | noAutolaunch here _ | notSpawned here _ =>
      rw [here] at tried
      obtain rfl : attempts = 0 := tried
      exact Nat.zero_le _
  | spawned here _ =>
      rw [here] at tried
      obtain rfl : attempts = 0 := tried
      exact ⟨Nat.le_of_eq (by simp [LifeLabel.attempt]), Nat.zero_le _⟩
  | poll here before =>
      rw [here] at tried
      have fewer : attempts * pollInterval < readyTimeout := by
        have := tried.1
        omega
      exact ⟨tried.1, Nat.lt_of_mul_lt_mul_right fewer⟩
  | giveUp here _ =>
      rw [here] at tried
      exact tried.2
  | connected here =>
      rw [here] at tried
      exact tried.2
  | notConnected here | elapse here _ =>
      rw [here] at tried
      refine ⟨?_, tried.2⟩
      change _ + (attempts + 1) * pollInterval ≤ s.now + pollInterval + readyTimeout
      have := tried.1
      rw [Nat.succ_mul]
      omega
  | wake here due =>
      rw [here] at tried
      exact ⟨Nat.le_trans tried.1 (Nat.add_le_add_right due _), tried.2⟩
  | abandon here | start here | selectSignal here _ | selectServe here _ | abort here
  | noChild here _ | terminate here _ _ | reapWaiting here _ | reapKilled here _ | kill here _ =>
      rw [here] at tried
      exact tried

theorem run_tried (runs : run (lifeStep noAutolaunch) (.start now) labels = some s) :
    Tried (labels.countP LifeLabel.attempt) s s.point := by
  induction labels using List.reverseRecOn generalizing s with
  | nil =>
      cases runs
      exact rfl
  | append_singleton labels label ih =>
      obtain ⟨middle, before, taken⟩ := run_concat_eq_some runs
      rw [List.countP_append]
      exact (lived_of_lifeStep taken).tried (ih before)

/-- Every attempt costs at least 200 of the 15000 milliseconds. -/
theorem attempts_le (runs : run (lifeStep noAutolaunch) (.start now) labels = some s) :
    labels.countP LifeLabel.attempt ≤ 75 := by
  have tried := run_tried runs
  cases here : s.point with
  | loadDns | parseListen | parseUpstream | bind | spawn =>
      rw [here] at tried
      exact Nat.le_trans (Nat.le_of_eq tried) (Nat.zero_le _)
  | polling _ | sleeping _ _ =>
      rw [here] at tried
      exact tried.2
  | connecting _ _ =>
      rw [here] at tried
      exact Nat.le_of_lt tried.2
  | _ =>
      rw [here] at tried
      exact tried

/-- What the launch of the child says of the time at which `run` gives up. -/
def Patient (launched : Nat) (s : Life) : LifePoint → Prop
  | .polling deadline | .connecting deadline _ | .sleeping deadline _ =>
      deadline = launched + readyTimeout
  | .notReady => launched + readyTimeout ≤ s.now
  | .terminating _ | .waiting _ _ | .killed _ | .returned _ =>
      s.serve = .idle → launched + readyTimeout ≤ s.now
  | .starting | .select | .aborting => True
  | _ => False

variable {launched : Nat}

theorem Patient.congr {point : LifePoint} (patient : Patient launched s point)
    (later : s.now ≤ next.now) (served : next.serve = .idle → s.serve = .idle) :
    Patient launched next point := by
  cases point with
  | notReady => exact Nat.le_trans patient later
  | terminating _ | waiting _ _ | killed _ | returned _ =>
      exact fun idle => Nat.le_trans (patient (served idle)) later
  | _ => exact patient

theorem not_patient_of_nextCheck {point after : LifePoint} (here : nextCheck point = some after) :
    ¬ Patient launched s point := by
  cases point <;> cases here <;> exact id

theorem Lived.patient (lived : Lived noAutolaunch s label next) (relies : Relies s s.point)
    (patient : Patient launched s s.point) : Patient launched next next.point := by
  cases lived with
  | tick => exact patient.congr (Nat.le_succ _) id
  | signal | childExits _ | dies _ _ => exact patient.congr (Nat.le_refl _) id
  | serveEnds _ | cancelled _ => exact patient.congr (Nat.le_refl _) fun idle => by cases idle
  | checked here | refused here => exact absurd patient (not_patient_of_nextCheck here)
  | noAutolaunch here _ | spawned here _ | notSpawned here _ =>
      rw [here] at patient
      exact patient.elim
  | connected _ | start _ | selectSignal _ _ | selectServe _ _ => exact trivial
  | poll here _ | notConnected here | elapse here _ | wake here _ =>
      rw [here] at patient
      exact patient
  | giveUp here passed =>
      rw [here] at patient
      exact Nat.le_trans (Nat.le_of_eq patient.symm) passed
  | abandon here =>
      rw [here] at patient
      exact fun _ => patient
  | abort here =>
      rw [here] at relies
      exact fun idle => absurd idle (not_idle_of_abort relies)
  | noChild here _ | terminate here _ _ | reapWaiting here _ | reapKilled here _ | kill here _ =>
      rw [here] at patient
      exact patient

/-- A child that was launched has fifteen seconds to be ready. -/
theorem patient_with_child {launch : Life} {code : Nat}
    (launched : (launch, .spawn true) ∈ history (lifeStep noAutolaunch) (.start now) labels)
    (unserved : .start ∉ labels)
    (runs : run (lifeStep noAutolaunch) (.start now) labels = some s)
    (returned : s.point = .returned code) : launch.now + 15000 ≤ s.now := by
  obtain ⟨first, second, next, rfl, before, taken, rest⟩ := mem_history runs launched
  have idle : s.serve = .idle := Decidable.not_not.mp (mt (run_made runs).2.mp unserved)
  have lived := lived_of_lifeStep taken
  have initially : Relies next next.point ∧ Patient launch.now next next.point := by
    refine ⟨lived.relies (run_relies before), ?_⟩
    cases lived with
    | spawned _ _ => exact rfl
  have kept := run_invariant (fun s => Relies s s.point ∧ Patient launch.now s s.point) initially
    ?_ rest
  · have patient := kept.2
    rw [returned] at patient
    exact patient idle
  · rintro state label next ⟨relies, patient⟩ taken
    have lived := lived_of_lifeStep taken
    exact ⟨lived.relies relies, lived.patient relies patient⟩

/-- Time can always pass. -/
theorem run_pass (s : Life) (millis : Nat) :
    run (lifeStep noAutolaunch) s (List.replicate millis .tick) =
      some { s with now := s.now + millis } := by
  induction millis generalizing s with
  | zero => rfl
  | succ millis ih =>
      rw [List.replicate_succ, run_cons_of_step _ (show lifeStep noAutolaunch s .tick = _ from rfl),
        ih, Nat.add_assoc, Nat.add_comm 1 millis]

/-- A child that never listens. -/
def refused : List LifeLabel := checksPass ++ [.spawn true, .poll, .connect false]

def givesUp : List LifeLabel := [.wake, .poll, .abandon, .terminate, .childExits, .reap]

theorem patient_with_child_refused :
    ∃ s, run (lifeStep false) (.start 0)
        (refused ++ (List.replicate 15000 .tick ++ givesUp)) = some s ∧
      s.point = .returned 1 ∧ 0 + 15000 ≤ s.now := by
  have launches : run (lifeStep false) (.start 0) refused =
      some ⟨0, .sleeping 15000 200, .running, .idle, false⟩ := by decide +kernel
  have runs : run (lifeStep false) (.start 0) (refused ++ (List.replicate 15000 .tick ++ givesUp)) =
      some ⟨15000, .returned 1, .reaped, .idle, false⟩ := by
    rw [run_append launches, run_append (run_pass _ 15000)]
    decide +kernel
  have launched : ((⟨0, .spawn, .none, .idle, false⟩ : Life), LifeLabel.spawn true) ∈
      history (lifeStep false) (.start 0) (refused ++ (List.replicate 15000 .tick ++ givesUp)) := by
    rw [history_append launches]
    exact List.mem_append_left _ (by decide +kernel)
  have unserved : LifeLabel.start ∉ refused ++ (List.replicate 15000 .tick ++ givesUp) := by
    intro started
    rcases List.mem_append.mp started with before | after
    · exact absurd before (by decide)
    · rcases List.mem_append.mp after with ticks | after
      · cases List.eq_of_mem_replicate ticks
      · exact absurd after (by decide)
  exact ⟨_, runs, rfl, patient_with_child launched unserved runs rfl⟩

end TailcatSocks.Rust
