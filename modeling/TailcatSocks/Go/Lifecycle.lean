import TailcatSocks.Library.Runs

/-!
# The life of the Go program and its child

`run` with the goroutines that it races with.  A move is one step of `run`
itself; what it decides on is the state of the context and of the two channels.
The other labels are those of the reaper, of the accept loop, of signals, of
the child, and of package `exec`, which terminates the child once the context
is cancelled, kills it after a delay, and starts nothing after cancellation.

The child is reaped when the reaper has closed `childDone`: by then `Wait` has
returned and `childErr` is written.
-/

namespace TailcatSocks.Go

open Library

/-- Where `run` stands. -/
inductive LifePoint where
  | loadDns
  | checkListen
  | checkUpstream
  | listen
  | launch
  | spawnFailed
  /-- At the first `select` of `waitReady`. -/
  | pollTop
  | pollDeadline
  | pollDial
  | pollWait
  /-- `waitReady` has returned false. -/
  | notReady
  /-- The serving phase begins. -/
  | serving
  | preCheck
  | select
  | logExit
  | cancelling (code : Nat)
  | closing (code : Nat)
  /-- At `<-childDone`, if there is a child. -/
  | waiting (code : Nat)
  | returned (code : Nat)
  deriving DecidableEq, Repr

inductive Child where
  | none
  | running
  | exited
  deriving DecidableEq, Repr

inductive Reaper where
  | idle
  | waiting
  /-- `Wait` has returned. -/
  | returned
  /-- `childDone` is closed. -/
  | closed
  deriving DecidableEq, Repr

inductive AcceptLoop where
  | idle
  | accepting
  /-- `Serve` has returned. -/
  | ended
  deriving DecidableEq, Repr

structure Life where
  point : LifePoint
  /-- `ctx.Err() != nil` -/
  cancelled : Bool
  child : Child
  /-- The child was sent SIGTERM. -/
  terminated : Bool
  reaper : Reaper
  acceptLoop : AcceptLoop
  deriving DecidableEq, Repr

/-- What the last `select` finds ready. -/
inductive Ready where
  | ctxDone
  | serveErr
  | childDone
  deriving DecidableEq, Repr

inductive Move where
  | check (succeeds : Bool)
  | noAutolaunch
  | spawnError
  | judgeSpawn
  | top
  | deadline (passed : Bool)
  | dial (connects : Bool)
  | wake (byCtx : Bool)
  | judge
  | preCheck
  | select (ready : Ready)
  | logChildExit
  | close
  | finish
  deriving DecidableEq, Repr

inductive LifeLabel where
  | move (move : Move)
  | spawn
  | serve
  | cancel
  | signal
  | childExits
  | terminate
  | kill
  | waitReturns
  | closeDone
  | serveEnds
  deriving DecidableEq, Repr

/-- Where a move leads. -/
def move (noAutolaunch : Bool) (s : Life) : Move → Option LifePoint
  | .check succeeds =>
      match s.point with
      | .loadDns => some (if succeeds then .checkListen else .returned 1)
      | .checkListen => some (if succeeds then .checkUpstream else .returned 1)
      | .checkUpstream => some (if succeeds then .listen else .returned 1)
      | .listen => some (if succeeds then .launch else .returned 1)
      | _ => none
  | .noAutolaunch => if s.point = .launch ∧ noAutolaunch = true then some .serving else none
  | .spawnError => if s.point = .launch ∧ noAutolaunch = false then some .spawnFailed else none
  | .judgeSpawn =>
      if s.point = .spawnFailed then some (.returned (if s.cancelled then 0 else 1)) else none
  | .top =>
      if s.point = .pollTop then some (if s.cancelled then .notReady else .pollDeadline) else none
  | .deadline passed =>
      if s.point = .pollDeadline then some (if passed then .notReady else .pollDial) else none
  | .dial connects =>
      if s.point = .pollDial then some (if connects then .serving else .pollWait) else none
  | .wake byCtx =>
      if s.point = .pollWait ∧ (byCtx = true → s.cancelled = true) then
        some (if byCtx then .notReady else .pollTop)
      else none
  | .judge =>
      if s.point = .notReady then some (.cancelling (if s.cancelled then 0 else 1)) else none
  | .preCheck =>
      if s.point = .preCheck then some (if s.reaper = .closed then .logExit else .select) else none
  | .select .ctxDone =>
      if s.point = .select ∧ s.cancelled = true then some (.cancelling 0) else none
  | .select .serveErr =>
      if s.point = .select ∧ s.acceptLoop = .ended then some (.cancelling 0) else none
  | .select .childDone =>
      if s.point = .select ∧ s.reaper = .closed then some .logExit else none
  | .logChildExit => if s.point = .logExit then some (.cancelling 1) else none
  | .close =>
      match s.point with
      | .closing code => some (.waiting code)
      | _ => none
  | .finish =>
      match s.point with
      | .waiting code =>
          if s.child = .none ∨ s.reaper = .closed then some (.returned code) else none
      | _ => none

def lifeStep (noAutolaunch : Bool) (s : Life) : LifeLabel → Option Life
  | .move m => (move noAutolaunch s m).map fun point => { s with point }
  | .spawn =>
      if s.point = .launch ∧ noAutolaunch = false ∧ s.cancelled = false then
        some { s with point := .pollTop, child := .running, reaper := .waiting }
      else none
  | .serve =>
      if s.point = .serving then some { s with point := .preCheck, acceptLoop := .accepting }
      else none
  | .cancel =>
      match s.point with
      | .cancelling code => some { s with point := .closing code, cancelled := true }
      | _ => none
  | .signal => some { s with cancelled := true }
  | .childExits => if s.child = .running then some { s with child := .exited } else none
  | .terminate =>
      if s.cancelled = true ∧ s.child = .running ∧ s.terminated = false then
        some { s with terminated := true }
      else none
  | .kill =>
      if s.terminated = true ∧ s.child = .running then some { s with child := .exited } else none
  | .waitReturns =>
      if s.reaper = .waiting ∧ s.child = .exited then some { s with reaper := .returned } else none
  | .closeDone => if s.reaper = .returned then some { s with reaper := .closed } else none
  | .serveEnds =>
      if s.acceptLoop = .accepting then some { s with acceptLoop := .ended } else none

def Life.start : Life := ⟨.loadDns, false, .none, false, .idle, .idle⟩

/-! ## What a step can do -/

inductive Moved (noAutolaunch : Bool) (s : Life) : Move → LifePoint → Prop where
  | loadDns {succeeds : Bool} : s.point = .loadDns →
      Moved noAutolaunch s (.check succeeds) (if succeeds then .checkListen else .returned 1)
  | checkListen {succeeds : Bool} : s.point = .checkListen →
      Moved noAutolaunch s (.check succeeds) (if succeeds then .checkUpstream else .returned 1)
  | checkUpstream {succeeds : Bool} : s.point = .checkUpstream →
      Moved noAutolaunch s (.check succeeds) (if succeeds then .listen else .returned 1)
  | listen {succeeds : Bool} : s.point = .listen →
      Moved noAutolaunch s (.check succeeds) (if succeeds then .launch else .returned 1)
  | noAutolaunch : s.point = .launch → Moved noAutolaunch s .noAutolaunch .serving
  | spawnError : s.point = .launch → Moved noAutolaunch s .spawnError .spawnFailed
  | judgeSpawn : s.point = .spawnFailed →
      Moved noAutolaunch s .judgeSpawn (.returned (if s.cancelled then 0 else 1))
  | top : s.point = .pollTop →
      Moved noAutolaunch s .top (if s.cancelled then .notReady else .pollDeadline)
  | deadline {passed : Bool} : s.point = .pollDeadline →
      Moved noAutolaunch s (.deadline passed) (if passed then .notReady else .pollDial)
  | dial {connects : Bool} : s.point = .pollDial →
      Moved noAutolaunch s (.dial connects) (if connects then .serving else .pollWait)
  | wake {byCtx : Bool} : s.point = .pollWait → (byCtx = true → s.cancelled = true) →
      Moved noAutolaunch s (.wake byCtx) (if byCtx then .notReady else .pollTop)
  | judge : s.point = .notReady →
      Moved noAutolaunch s .judge (.cancelling (if s.cancelled then 0 else 1))
  | childGone : s.point = .preCheck → s.reaper = .closed →
      Moved noAutolaunch s .preCheck .logExit
  | goOn : s.point = .preCheck → s.reaper ≠ .closed → Moved noAutolaunch s .preCheck .select
  | ctxDone : s.point = .select → s.cancelled = true →
      Moved noAutolaunch s (.select .ctxDone) (.cancelling 0)
  | serveErr : s.point = .select → s.acceptLoop = .ended →
      Moved noAutolaunch s (.select .serveErr) (.cancelling 0)
  | childDone : s.point = .select → s.reaper = .closed →
      Moved noAutolaunch s (.select .childDone) .logExit
  | logChildExit : s.point = .logExit → Moved noAutolaunch s .logChildExit (.cancelling 1)
  | close {code : Nat} : s.point = .closing code → Moved noAutolaunch s .close (.waiting code)
  | finish {code : Nat} : s.point = .waiting code → s.child = .none ∨ s.reaper = .closed →
      Moved noAutolaunch s .finish (.returned code)

inductive Lived (noAutolaunch : Bool) (s : Life) : LifeLabel → Life → Prop where
  | move {m : Move} {point : LifePoint} :
      move noAutolaunch s m = some point → Lived noAutolaunch s (.move m) { s with point }
  | spawn : s.point = .launch → s.cancelled = false →
      Lived noAutolaunch s .spawn
        { s with point := .pollTop, child := .running, reaper := .waiting }
  | serve : s.point = .serving →
      Lived noAutolaunch s .serve { s with point := .preCheck, acceptLoop := .accepting }
  | cancel {code : Nat} : s.point = .cancelling code →
      Lived noAutolaunch s .cancel { s with point := .closing code, cancelled := true }
  | signal : Lived noAutolaunch s .signal { s with cancelled := true }
  | childExits : s.child = .running →
      Lived noAutolaunch s .childExits { s with child := .exited }
  | terminate : s.cancelled = true → s.child = .running →
      Lived noAutolaunch s .terminate { s with terminated := true }
  | kill : s.terminated = true → s.child = .running →
      Lived noAutolaunch s .kill { s with child := .exited }
  | waitReturns : s.reaper = .waiting → s.child = .exited →
      Lived noAutolaunch s .waitReturns { s with reaper := .returned }
  | closeDone : s.reaper = .returned →
      Lived noAutolaunch s .closeDone { s with reaper := .closed }
  | serveEnds : s.acceptLoop = .accepting →
      Lived noAutolaunch s .serveEnds { s with acceptLoop := .ended }

variable {noAutolaunch : Bool} {s next : Life}

theorem moved_of_move {m : Move} {point : LifePoint} (moves : move noAutolaunch s m = some point) :
    Moved noAutolaunch s m point := by
  cases m with
  | check succeeds =>
      simp only [move] at moves
      split at moves <;> cases moves
      · exact .loadDns ‹_›
      · exact .checkListen ‹_›
      · exact .checkUpstream ‹_›
      · exact .listen ‹_›
  | noAutolaunch =>
      simp only [move] at moves
      split at moves <;> cases moves
      next enabled => exact .noAutolaunch enabled.1
  | spawnError =>
      simp only [move] at moves
      split at moves <;> cases moves
      next enabled => exact .spawnError enabled.1
  | judgeSpawn =>
      simp only [move] at moves
      split at moves <;> cases moves
      exact .judgeSpawn ‹_›
  | top =>
      simp only [move] at moves
      split at moves <;> cases moves
      exact .top ‹_›
  | deadline passed =>
      simp only [move] at moves
      split at moves <;> cases moves
      exact .deadline ‹_›
  | dial connects =>
      simp only [move] at moves
      split at moves <;> cases moves
      exact .dial ‹_›
  | wake byCtx =>
      simp only [move] at moves
      split at moves <;> cases moves
      next enabled => exact .wake enabled.1 enabled.2
  | judge =>
      simp only [move] at moves
      split at moves <;> cases moves
      exact .judge ‹_›
  | preCheck =>
      simp only [move] at moves
      split at moves <;> cases moves
      next here =>
      by_cases closed : s.reaper = .closed
      · rw [if_pos closed]
        exact .childGone here closed
      · rw [if_neg closed]
        exact .goOn here closed
  | select ready =>
      cases ready with
      | ctxDone =>
          simp only [move] at moves
          split at moves <;> cases moves
          next enabled => exact .ctxDone enabled.1 enabled.2
      | serveErr =>
          simp only [move] at moves
          split at moves <;> cases moves
          next enabled => exact .serveErr enabled.1 enabled.2
      | childDone =>
          simp only [move] at moves
          split at moves <;> cases moves
          next enabled => exact .childDone enabled.1 enabled.2
  | logChildExit =>
      simp only [move] at moves
      split at moves <;> cases moves
      exact .logChildExit ‹_›
  | close =>
      simp only [move] at moves
      split at moves <;> cases moves
      exact .close ‹_›
  | finish =>
      simp only [move] at moves
      split at moves
      · split at moves <;> cases moves
        exact .finish ‹_› ‹_›
      · cases moves

theorem lived_of_lifeStep {label : LifeLabel} (taken : lifeStep noAutolaunch s label = some next) :
    Lived noAutolaunch s label next := by
  cases label with
  | move m =>
      obtain ⟨point, moves, rfl⟩ := Option.map_eq_some_iff.mp taken
      exact .move moves
  | spawn =>
      simp only [lifeStep] at taken
      split at taken <;> cases taken
      next enabled => exact .spawn enabled.1 enabled.2.2
  | serve =>
      simp only [lifeStep] at taken
      split at taken <;> cases taken
      exact .serve ‹_›
  | cancel =>
      simp only [lifeStep] at taken
      split at taken <;> cases taken
      exact .cancel ‹_›
  | signal =>
      cases taken
      exact .signal
  | childExits =>
      simp only [lifeStep] at taken
      split at taken <;> cases taken
      exact .childExits ‹_›
  | terminate =>
      simp only [lifeStep] at taken
      split at taken <;> cases taken
      next enabled => exact .terminate enabled.1 enabled.2.1
  | kill =>
      simp only [lifeStep] at taken
      split at taken <;> cases taken
      next enabled => exact .kill enabled.1 enabled.2
  | waitReturns =>
      simp only [lifeStep] at taken
      split at taken <;> cases taken
      next enabled => exact .waitReturns enabled.1 enabled.2
  | closeDone =>
      simp only [lifeStep] at taken
      split at taken <;> cases taken
      exact .closeDone ‹_›
  | serveEnds =>
      simp only [lifeStep] at taken
      split at taken <;> cases taken
      exact .serveEnds ‹_›

/-! ## What holds where -/

/-- The reaper and the child. -/
structure Reaps (s : Life) : Prop where
  idle_iff : s.child = .none ↔ s.reaper = .idle
  exited : s.reaper = .returned ∨ s.reaper = .closed → s.child = .exited

/-- What `run` relies on where it stands. -/
def Relies (s : Life) : LifePoint → Prop
  | .loadDns | .checkListen | .checkUpstream | .listen | .launch | .spawnFailed => s.child = .none
  | .logExit => s.reaper = .closed
  | .closing _ | .waiting _ => s.cancelled = true
  | .returned _ => s.child = .none ∨ s.reaper = .closed
  | _ => True

/-- What is relied on is not taken back. -/
theorem Relies.mono {point : LifePoint} (relies : Relies s point)
    (none : s.child = .none → next.child = .none)
    (closed : s.reaper = .closed → next.reaper = .closed)
    (cancelled : s.cancelled = true → next.cancelled = true) : Relies next point := by
  cases point with
  | loadDns | checkListen | checkUpstream | listen | launch | spawnFailed => exact none relies
  | logExit => exact closed relies
  | closing _ | waiting _ => exact cancelled relies
  | returned _ => exact relies.imp none closed
  | _ => exact trivial

theorem Moved.relies {m : Move} {point : LifePoint} (moved : Moved noAutolaunch s m point)
    (relies : Relies s s.point) : Relies s point := by
  cases moved with
  | loadDns here | checkListen here | checkUpstream here | listen here =>
      rw [here] at relies
      split
      · exact relies
      · exact .inl relies
  | spawnError here =>
      rw [here] at relies
      exact relies
  | judgeSpawn here =>
      rw [here] at relies
      exact .inl relies
  | top _ | deadline _ | dial _ | wake _ _ => split <;> exact trivial
  | noAutolaunch _ | judge _ | goOn _ _ | ctxDone _ _ | serveErr _ _ | logChildExit _ =>
      exact trivial
  | childGone _ closed | childDone _ closed => exact closed
  | close here =>
      rw [here] at relies
      exact relies
  | finish _ free => exact free

theorem Lived.relies {label : LifeLabel} (lived : Lived noAutolaunch s label next)
    (relies : Relies s s.point) : Relies next next.point := by
  cases lived with
  | move moves => exact ((moved_of_move moves).relies relies).mono id id id
  | spawn _ _ | serve _ => exact trivial
  | cancel _ => exact rfl
  | signal => exact relies.mono id id fun _ => rfl
  | childExits running | kill _ running =>
      refine relies.mono (fun none => ?_) id id
      rw [none] at running
      cases running
  | terminate _ _ | serveEnds _ => exact relies.mono id id id
  | waitReturns waits _ =>
      refine relies.mono id (fun closed => ?_) id
      rw [closed] at waits
      cases waits
  | closeDone _ => exact relies.mono id (fun _ => rfl) id

theorem Lived.reaps {label : LifeLabel} (lived : Lived noAutolaunch s label next)
    (reaps : Reaps s) : Reaps next := by
  cases lived with
  | move _ | serve _ | cancel _ | signal | terminate _ _ | serveEnds _ =>
      exact ⟨reaps.idle_iff, reaps.exited⟩
  | spawn _ _ => exact ⟨by simp, by simp⟩
  | childExits running | kill _ running =>
      refine ⟨?_, fun _ => rfl⟩
      have busy : s.reaper ≠ .idle := mt reaps.idle_iff.mpr (by simp [running])
      simpa using busy
  | waitReturns waits exited =>
      exact ⟨by simp [exited], fun _ => exited⟩
  | closeDone returned =>
      have exited := reaps.exited (.inl returned)
      exact ⟨by simp [exited], fun _ => exited⟩

/-! ## A child that is reaped before the serving phase -/

/-- `run` has met a reaped child in the serving phase, and goes on to return 1. -/
def Attributed (s : Life) : LifePoint → Prop
  | .serving | .preCheck | .logExit => s.reaper = .closed
  | .cancelling code | .closing code | .waiting code | .returned code => code = 1
  | _ => False

theorem Attributed.mono {point : LifePoint} (attributed : Attributed s point)
    (closed : s.reaper = .closed → next.reaper = .closed) : Attributed next point := by
  cases point with
  | serving | preCheck | logExit => exact closed attributed
  | _ => exact attributed

theorem Moved.attributed {m : Move} {point : LifePoint} (moved : Moved noAutolaunch s m point)
    (attributed : Attributed s s.point) : Attributed s point := by
  cases moved with
  | childGone _ closed => exact closed
  | goOn here notClosed =>
      rw [here] at attributed
      exact absurd attributed notClosed
  | logChildExit _ => exact rfl
  | close here | finish here _ =>
      rw [here] at attributed
      exact attributed
  | loadDns here | checkListen here | checkUpstream here | listen here | noAutolaunch here
  | spawnError here | judgeSpawn here | top here | deadline here | dial here | wake here _
  | judge here | ctxDone here _ | serveErr here _ | childDone here _ =>
      rw [here] at attributed
      exact attributed.elim

theorem Lived.attributed {label : LifeLabel} (lived : Lived noAutolaunch s label next)
    (attributed : Attributed s s.point) : Attributed next next.point := by
  cases lived with
  | move moves => exact ((moved_of_move moves).attributed attributed).mono id
  | spawn here _ =>
      rw [here] at attributed
      exact attributed.elim
  | serve here | cancel here =>
      rw [here] at attributed
      exact attributed
  | signal | childExits _ | terminate _ _ | kill _ _ | serveEnds _ => exact attributed.mono id
  | waitReturns waits _ =>
      refine attributed.mono fun closed => ?_
      rw [closed] at waits
      cases waits
  | closeDone _ => exact attributed.mono fun _ => rfl

/-! ## Shutting down -/

/-- Steps that need neither the user nor the child's good will. -/
def LifeLabel.Own : LifeLabel → Prop
  | .signal | .childExits | .serveEnds => False
  | _ => True

/-- How many steps are left before `childDone` is closed. -/
def Life.remaining (s : Life) : Nat :=
  match s.child, s.reaper with
  | .none, _ => 0
  | .running, _ => if s.terminated then 4 else 5
  | .exited, .waiting => 2
  | .exited, .returned => 1
  | .exited, _ => 0

/-- Waiting on a cancelled context. -/
structure ShuttingDown (s : Life) (code : Nat) : Prop where
  here : s.point = .waiting code
  cancelled : s.cancelled = true
  reaps : Reaps s

theorem exists_lower (noAutolaunch : Bool) {code : Nat} (down : ShuttingDown s code)
    (more : s.remaining ≠ 0) :
    ∃ label next, label.Own ∧ lifeStep noAutolaunch s label = some next ∧
      ShuttingDown next code ∧ next.remaining < s.remaining := by
  obtain ⟨here, cancelled, reaps⟩ := down
  cases child : s.child with
  | none => exact absurd (by rw [Life.remaining, child]) more
  | running =>
      cases terminated : s.terminated with
      | false =>
          have taken : lifeStep noAutolaunch s .terminate = some { s with terminated := true } :=
            if_pos ⟨cancelled, child, terminated⟩
          refine ⟨.terminate, _, trivial, taken,
            ⟨here, cancelled, (lived_of_lifeStep taken).reaps reaps⟩, ?_⟩
          simp [Life.remaining, child, terminated]
      | true =>
          have taken : lifeStep noAutolaunch s .kill = some { s with child := .exited } :=
            if_pos ⟨terminated, child⟩
          refine ⟨.kill, _, trivial, taken,
            ⟨here, cancelled, (lived_of_lifeStep taken).reaps reaps⟩, ?_⟩
          cases reaper : s.reaper <;> simp [Life.remaining, child, terminated, reaper]
  | exited =>
      cases reaper : s.reaper with
      | idle => exact absurd (reaps.idle_iff.mpr reaper) (by simp [child])
      | waiting =>
          have taken : lifeStep noAutolaunch s .waitReturns = some { s with reaper := .returned } :=
            if_pos ⟨reaper, child⟩
          refine ⟨.waitReturns, _, trivial, taken,
            ⟨here, cancelled, (lived_of_lifeStep taken).reaps reaps⟩, ?_⟩
          simp [Life.remaining, child, reaper]
      | returned =>
          have taken : lifeStep noAutolaunch s .closeDone = some { s with reaper := .closed } :=
            if_pos reaper
          refine ⟨.closeDone, _, trivial, taken,
            ⟨here, cancelled, (lived_of_lifeStep taken).reaps reaps⟩, ?_⟩
          simp [Life.remaining, child, reaper]
      | closed => exact absurd (by rw [Life.remaining, child, reaper]) more

theorem finish_of_remaining {code : Nat} (down : ShuttingDown s code) (last : s.remaining = 0) :
    lifeStep noAutolaunch s (.move .finish) = some { s with point := .returned code } := by
  have free : s.child = .none ∨ s.reaper = .closed := by
    cases child : s.child with
    | none => exact .inl rfl
    | running =>
        rw [Life.remaining, child] at last
        cases terminated : s.terminated <;> simp [terminated] at last
    | exited =>
        cases reaper : s.reaper with
        | idle => exact absurd (down.reaps.idle_iff.mpr reaper) (by simp [child])
        | waiting | returned => simp [Life.remaining, child, reaper] at last
        | closed => exact .inr rfl
  simp only [lifeStep, move, down.here, if_pos free, Option.map_some]

/-- The wait for the reaper ends, whatever the child does. -/
theorem completes_of_waiting {code : Nat} (down : ShuttingDown s code) :
    ∃ more later, (∀ label ∈ more, label.Own) ∧
      run (lifeStep noAutolaunch) s more = some later ∧ later.point = .returned code := by
  generalize measured : s.remaining = size
  induction size using Nat.strongRecOn generalizing s with
  | ind size ih =>
      by_cases last : s.remaining = 0
      · refine ⟨[.move .finish], { s with point := .returned code },
          List.forall_mem_singleton.mpr trivial, ?_, rfl⟩
        rw [run_cons_of_step _ (finish_of_remaining down last), run_nil]
      · obtain ⟨label, next, own, taken, down', lower⟩ := exists_lower noAutolaunch down last
        obtain ⟨more, later, allOwn, goes, done⟩ := ih next.remaining (measured ▸ lower) down' rfl
        exact ⟨label :: more, later, List.forall_mem_cons.mpr ⟨own, allOwn⟩,
          by rw [run_cons_of_step _ taken, goes], done⟩

/-! ## Whole runs -/

section Runs

variable {labels : List LifeLabel}

theorem run_reaps (runs : run (lifeStep noAutolaunch) .start labels = some s) : Reaps s :=
  run_invariant Reaps ⟨by simp [Life.start], by simp [Life.start]⟩
    (fun _ _ _ reaps taken => (lived_of_lifeStep taken).reaps reaps) runs

theorem run_relies (runs : run (lifeStep noAutolaunch) .start labels = some s) :
    Relies s s.point :=
  run_invariant (fun s => Relies s s.point) (show Relies .start .loadDns from rfl)
    (fun _ _ _ relies taken => (lived_of_lifeStep taken).relies relies) runs

theorem run_attributed (runs : run (lifeStep noAutolaunch) .start labels = some s)
    {entry : Life × LifeLabel}
    (member : entry ∈ history (lifeStep noAutolaunch) .start labels)
    (serving : entry.1.point = .serving ∨ entry.1.point = .preCheck)
    (closed : entry.1.reaper = .closed) : Attributed s s.point := by
  have attributed : Attributed entry.1 entry.1.point := by
    rcases serving with here | here <;> rw [here] <;> exact closed
  exact run_invariant_from (fun s => Attributed s s.point) member
    (fun _ _ _ taken => (lived_of_lifeStep taken).attributed attributed)
    (fun _ _ _ attributed taken => (lived_of_lifeStep taken).attributed attributed) runs

/-- In every run: when `run` returns after a spawn, the child has exited and
been reaped; it waits for the reaper alone only on a cancelled context, and
that wait can always end; `childErr` is read only after `childDone` is closed;
and a child that is reaped when the serving phase begins leads to exit code 1. -/
theorem lifecycle (runs : run (lifeStep noAutolaunch) .start labels = some s) :
    (∀ code, s.point = .returned code → s.child ≠ .none →
        s.child = .exited ∧ s.reaper = .closed) ∧
      (∀ code, s.point = .waiting code → s.cancelled = true ∧
        ∃ more later, (∀ label ∈ more, label.Own) ∧
          run (lifeStep noAutolaunch) s more = some later ∧ later.point = .returned code) ∧
      (s.point = .logExit → s.reaper = .closed) ∧
      ∀ entry ∈ history (lifeStep noAutolaunch) .start labels,
        (entry.1.point = .serving ∨ entry.1.point = .preCheck) → entry.1.reaper = .closed →
          ∀ code, s.point = .returned code → code = 1 := by
  have relies := run_relies runs
  have reaps := run_reaps runs
  refine ⟨fun code here spawned => ?_, fun code here => ?_, fun here => ?_, ?_⟩
  · rw [here] at relies
    have closed := relies.resolve_left spawned
    exact ⟨reaps.exited (.inr closed), closed⟩
  · rw [here] at relies
    exact ⟨relies, completes_of_waiting ⟨here, relies, reaps⟩⟩
  · rw [here] at relies
    exact relies
  · intro entry member serving closed code here
    have attributed := run_attributed runs member serving closed
    rw [here] at attributed
    exact attributed

end Runs

/-- The child exits while its port is polled, and a signal arrives too. -/
def exitsAtLaunch : List LifeLabel :=
  [.move (.check true), .move (.check true), .move (.check true), .move (.check true), .spawn,
    .move .top, .move (.deadline false), .childExits, .waitReturns, .closeDone,
    .move (.dial true), .signal, .serve, .move .preCheck, .move .logChildExit, .cancel,
    .move .close, .move .finish]

theorem lifecycle_exitsAtLaunch :
    ∃ s, run (lifeStep false) .start exitsAtLaunch = some s ∧ s.point = .returned 1 ∧
      s.child = .exited ∧ s.reaper = .closed := by
  have runs : run (lifeStep false) .start exitsAtLaunch = some _ := rfl
  exact ⟨_, runs, rfl, (lifecycle runs).1 1 rfl (by decide)⟩

end TailcatSocks.Go
