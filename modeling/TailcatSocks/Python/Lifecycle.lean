import TailcatSocks.Library.Runs

/-!
# The life of the Python program and its child

`main` with `_spawn_tailcat_socks`, `_wait_ready` and `_terminate`, from its
first check to the end of the process.  A signal is a step of its own: SIGINT
raises `KeyboardInterrupt` wherever `main` stands, SIGTERM does so once its
handler is installed and ends the process at once before.  What `atexit` has
registered runs whenever the interpreter exits by itself.
-/

namespace TailcatSocks.Python

open Library

/-- How the process ends. -/
inductive Exit where
  | returned (code : Nat)
  /-- By an exception other than `KeyboardInterrupt`. -/
  | raised
  | interrupted
  /-- By SIGTERM. -/
  | terminated
  deriving DecidableEq, Repr

/-- Where `_terminate` is called. -/
inductive Caller where
  /-- When the upstream is not ready. -/
  | abort
  /-- In the `finally` of the serving phase, `main` returning 0. -/
  | shutdown
  /-- In the same `finally`, on the way of an exception. -/
  | failure
  | atexit (exit : Exit)
  deriving DecidableEq, Repr

/-- Where `_terminate` stands. -/
inductive Phase where
  | poll
  | terminate
  | wait
  /-- After `TimeoutExpired`. -/
  | kill
  deriving DecidableEq, Repr

/-- Where `main` stands. -/
inductive LifePoint where
  | loadDns
  | parseUpstream
  | findPort
  | bindListen
  | spawn
  /-- `Popen` has returned. -/
  | launched
  /-- In `_wait_ready`. -/
  | waiting
  /-- At `signal.signal`. -/
  | installing
  | preparing
  | serving
  | terminating (caller : Caller) (phase : Phase)
  | gone (exit : Exit)
  deriving DecidableEq, Repr

inductive Child where
  | none
  | running
  | exited
  | killed
  deriving DecidableEq, Repr

structure Life where
  point : LifePoint
  child : Child
  /-- `atexit.register(_terminate, proc)` has been called. -/
  registered : Bool
  /-- `_on_signal` handles SIGTERM. -/
  handler : Bool
  deriving DecidableEq, Repr

inductive LifeLabel where
  | sigint
  | sigterm
  | childExits
  /-- The next of the checks before the launch. -/
  | check (succeeds : Bool)
  | noAutolaunch
  | spawn (succeeds : Bool)
  | register
  | ready (succeeds : Bool)
  | install (succeeds : Bool)
  | prepare
  /-- An exception that nothing catches. -/
  | fail
  | acceptFails
  | poll
  | terminate
  | waited
  | expire
  | kill
  deriving DecidableEq, Repr

/-- Where the interpreter goes when `main` is over. -/
def exits (registered : Bool) (exit : Exit) : LifePoint :=
  if registered then .terminating (.atexit exit) .poll else .gone exit

/-- Where `_terminate` returns to. -/
def Caller.after (registered : Bool) : Caller → LifePoint
  | .abort => exits registered (.returned 1)
  | .shutdown => exits registered (.returned 0)
  | .failure => exits registered .raised
  | .atexit exit => .gone exit

/-- The `finally` of the serving phase. -/
def finish (s : Life) (caller : Caller) : LifePoint :=
  if s.child = .none then caller.after s.registered else .terminating caller .poll

/-- Where `KeyboardInterrupt` leads. -/
def interrupted (s : Life) : LifePoint → Option LifePoint
  | .gone _ => none
  | .serving => some (finish s .shutdown)
  -- the interpreter reports an exception of a callback and goes on
  | .terminating (.atexit exit) _ => some (.gone exit)
  | _ => some (exits s.registered .interrupted)

/-- What follows a check that succeeds. -/
def nextCheck : LifePoint → Option LifePoint
  | .loadDns => some .parseUpstream
  | .parseUpstream => some .findPort
  | .findPort => some .bindListen
  | .bindListen => some .spawn
  | _ => none

def lifeStep (noAutolaunch : Bool) (s : Life) : LifeLabel → Option Life
  | .sigint => (interrupted s s.point).map fun point => { s with point }
  | .sigterm =>
      if s.handler then (interrupted s s.point).map fun point => { s with point }
      else
        match s.point with
        | .gone _ => none
        | _ => some { s with point := .gone .terminated }
  | .childExits => if s.child = .running then some { s with child := .exited } else none
  | .check succeeds =>
      match nextCheck s.point with
      | some next => some { s with point := if succeeds then next else exits s.registered .raised }
      | none => none
  | .noAutolaunch =>
      if s.point = .spawn ∧ noAutolaunch = true then some { s with point := .installing } else none
  | .spawn succeeds =>
      if s.point = .spawn ∧ noAutolaunch = false then
        if succeeds then some { s with point := .launched, child := .running }
        else some { s with point := exits s.registered (.returned 1) }
      else none
  | .register =>
      if s.point = .launched then some { s with point := .waiting, registered := true } else none
  | .ready succeeds =>
      if s.point = .waiting then
        some { s with point := if succeeds then .installing else .terminating .abort .poll }
      else none
  | .install succeeds =>
      if s.point = .installing then some { s with point := .preparing, handler := succeeds }
      else none
  | .prepare => if s.point = .preparing then some { s with point := .serving } else none
  | .fail =>
      match s.point with
      | .waiting | .installing | .preparing => some { s with point := exits s.registered .raised }
      | .serving => some { s with point := finish s .failure }
      | _ => none
  | .acceptFails =>
      if s.point = .serving then some { s with point := finish s .shutdown } else none
  | .poll =>
      match s.point with
      | .terminating caller .poll =>
          some { s with
            point :=
              if s.child = .running then .terminating caller .terminate
              else caller.after s.registered }
      | _ => none
  | .terminate =>
      match s.point with
      | .terminating caller .terminate => some { s with point := .terminating caller .wait }
      | _ => none
  | .waited =>
      match s.point with
      | .terminating caller .wait =>
          if s.child = .running then none else some { s with point := caller.after s.registered }
      | _ => none
  | .expire =>
      match s.point with
      | .terminating caller .wait => some { s with point := .terminating caller .kill }
      | _ => none
  | .kill =>
      match s.point with
      | .terminating caller .kill =>
          some { s with
            point := caller.after s.registered
            child := if s.child = .running then .killed else s.child }
      | _ => none

def Life.start : Life := ⟨.loadDns, .none, false, false⟩

/-! ## What a step can do -/

inductive Lived (noAutolaunch : Bool) (s : Life) : LifeLabel → Life → Prop where
  | sigint {point : LifePoint} : interrupted s s.point = some point →
      Lived noAutolaunch s .sigint { s with point }
  | handled {point : LifePoint} : s.handler = true → interrupted s s.point = some point →
      Lived noAutolaunch s .sigterm { s with point }
  | unhandled : s.handler = false → (∀ exit, s.point ≠ .gone exit) →
      Lived noAutolaunch s .sigterm { s with point := .gone .terminated }
  | childExits : s.child = .running →
      Lived noAutolaunch s .childExits { s with child := .exited }
  | checked {next : LifePoint} : nextCheck s.point = some next →
      Lived noAutolaunch s (.check true) { s with point := next }
  | refused {next : LifePoint} : nextCheck s.point = some next →
      Lived noAutolaunch s (.check false) { s with point := exits s.registered .raised }
  | noAutolaunch : s.point = .spawn → noAutolaunch = true →
      Lived noAutolaunch s .noAutolaunch { s with point := .installing }
  | spawned : s.point = .spawn → noAutolaunch = false →
      Lived noAutolaunch s (.spawn true) { s with point := .launched, child := .running }
  | notSpawned : s.point = .spawn → noAutolaunch = false →
      Lived noAutolaunch s (.spawn false) { s with point := exits s.registered (.returned 1) }
  | register : s.point = .launched →
      Lived noAutolaunch s .register { s with point := .waiting, registered := true }
  | ready : s.point = .waiting → Lived noAutolaunch s (.ready true) { s with point := .installing }
  | notReady : s.point = .waiting →
      Lived noAutolaunch s (.ready false) { s with point := .terminating .abort .poll }
  | install {succeeds : Bool} : s.point = .installing →
      Lived noAutolaunch s (.install succeeds) { s with point := .preparing, handler := succeeds }
  | prepare : s.point = .preparing → Lived noAutolaunch s .prepare { s with point := .serving }
  | failed : s.point = .waiting ∨ s.point = .installing ∨ s.point = .preparing →
      Lived noAutolaunch s .fail { s with point := exits s.registered .raised }
  | failedServing : s.point = .serving →
      Lived noAutolaunch s .fail { s with point := finish s .failure }
  | acceptFails : s.point = .serving →
      Lived noAutolaunch s .acceptFails { s with point := finish s .shutdown }
  | lives {caller : Caller} : s.point = .terminating caller .poll → s.child = .running →
      Lived noAutolaunch s .poll { s with point := .terminating caller .terminate }
  | stopped {caller : Caller} : s.point = .terminating caller .poll → s.child ≠ .running →
      Lived noAutolaunch s .poll { s with point := caller.after s.registered }
  | terminate {caller : Caller} : s.point = .terminating caller .terminate →
      Lived noAutolaunch s .terminate { s with point := .terminating caller .wait }
  | waited {caller : Caller} : s.point = .terminating caller .wait → s.child ≠ .running →
      Lived noAutolaunch s .waited { s with point := caller.after s.registered }
  | expire {caller : Caller} : s.point = .terminating caller .wait →
      Lived noAutolaunch s .expire { s with point := .terminating caller .kill }
  | kill {caller : Caller} : s.point = .terminating caller .kill →
      Lived noAutolaunch s .kill
        { s with
          point := caller.after s.registered
          child := if s.child = .running then .killed else s.child }

variable {noAutolaunch : Bool} {s next : Life} {label : LifeLabel}

theorem lived_of_lifeStep (taken : lifeStep noAutolaunch s label = some next) :
    Lived noAutolaunch s label next := by
  cases label with
  | sigint =>
      obtain ⟨point, leads, rfl⟩ := Option.map_eq_some_iff.mp taken
      exact .sigint leads
  | sigterm =>
      simp only [lifeStep] at taken
      split at taken
      · obtain ⟨point, leads, rfl⟩ := Option.map_eq_some_iff.mp taken
        exact .handled ‹_› leads
      · split at taken <;> cases taken
        exact .unhandled (Bool.eq_false_iff.mpr ‹_›) ‹_›
  | childExits =>
      simp only [lifeStep] at taken
      split at taken <;> cases taken
      exact .childExits ‹_›
  | check succeeds =>
      simp only [lifeStep] at taken
      split at taken <;> cases taken
      next here =>
      cases succeeds with
      | true => exact .checked here
      | false => exact .refused here
  | noAutolaunch =>
      simp only [lifeStep] at taken
      split at taken <;> cases taken
      next enabled => exact .noAutolaunch enabled.1 enabled.2
  | spawn succeeds =>
      simp only [lifeStep] at taken
      split at taken
      · next enabled =>
        cases succeeds with
        | true =>
            cases taken
            exact .spawned enabled.1 enabled.2
        | false =>
            cases taken
            exact .notSpawned enabled.1 enabled.2
      · cases taken
  | register =>
      simp only [lifeStep] at taken
      split at taken <;> cases taken
      exact .register ‹_›
  | ready succeeds =>
      simp only [lifeStep] at taken
      split at taken <;> cases taken
      cases succeeds with
      | true => exact .ready ‹_›
      | false => exact .notReady ‹_›
  | install succeeds =>
      simp only [lifeStep] at taken
      split at taken <;> cases taken
      exact .install ‹_›
  | prepare =>
      simp only [lifeStep] at taken
      split at taken <;> cases taken
      exact .prepare ‹_›
  | fail =>
      simp only [lifeStep] at taken
      split at taken <;> cases taken
      · exact .failed (.inl ‹_›)
      · exact .failed (.inr (.inl ‹_›))
      · exact .failed (.inr (.inr ‹_›))
      · exact .failedServing ‹_›
  | acceptFails =>
      simp only [lifeStep] at taken
      split at taken <;> cases taken
      exact .acceptFails ‹_›
  | poll =>
      simp only [lifeStep] at taken
      split at taken <;> cases taken
      next caller here =>
      by_cases running : s.child = .running
      · rw [if_pos running]
        exact .lives here running
      · rw [if_neg running]
        exact .stopped here running
  | terminate =>
      simp only [lifeStep] at taken
      split at taken <;> cases taken
      exact .terminate ‹_›
  | waited =>
      simp only [lifeStep] at taken
      split at taken
      · split at taken <;> cases taken
        exact .waited ‹_› ‹_›
      · cases taken
  | expire =>
      simp only [lifeStep] at taken
      split at taken <;> cases taken
      exact .expire ‹_›
  | kill =>
      simp only [lifeStep] at taken
      split at taken <;> cases taken
      exact .kill ‹_›

/-! ## What holds where -/

/-- What `main` relies on where it stands. -/
def Relies (child : Child) (registered : Bool) : LifePoint → Prop
  | .loadDns | .parseUpstream | .findPort | .bindListen | .spawn =>
      child = .none ∧ registered = false
  | .launched => child ≠ .none ∧ registered = false
  | .waiting => child ≠ .none ∧ registered = true
  | .installing | .preparing | .serving => registered = true ↔ child ≠ .none
  | .terminating (.atexit (.returned _)) _ =>
      child ≠ .none ∧ registered = true ∧ child ≠ .running
  | .terminating _ _ => child ≠ .none ∧ registered = true
  | .gone (.returned _) => child ≠ .running
  | .gone _ => True

variable {child : Child} {registered : Bool}

/-- However the child ends. -/
theorem Relies.ended {point : LifePoint} (relies : Relies .running registered point)
    (spawned : child ≠ .none) (stopped : child ≠ .running) : Relies child registered point := by
  cases point with
  | terminating caller phase =>
      cases caller with
      | atexit exit =>
          cases exit with
          | returned code => exact absurd rfl relies.2.2
          | _ => exact ⟨spawned, relies.2⟩
      | _ => exact ⟨spawned, relies.2⟩
  | gone exit =>
      cases exit with
      | returned code => exact stopped
      | _ => exact trivial
  | launched | waiting => exact ⟨spawned, relies.2⟩
  | installing | preparing | serving =>
      exact ⟨fun _ => spawned, fun _ => relies.mpr Child.noConfusion⟩
  | _ => cases relies.1

theorem Relies.spawned {caller : Caller} {phase : Phase}
    (relies : Relies child registered (.terminating caller phase)) :
    child ≠ .none ∧ registered = true := by
  cases caller with
  | atexit exit =>
      cases exit with
      | returned code => exact ⟨relies.1, relies.2.1⟩
      | _ => exact relies
  | _ => exact relies

/-- The phase does not matter. -/
theorem Relies.phase {caller : Caller} {phase next : Phase}
    (relies : Relies child registered (.terminating caller phase)) :
    Relies child registered (.terminating caller next) := by
  cases caller with
  | atexit exit => cases exit <;> exact relies
  | _ => exact relies

theorem relies_exits {exit : Exit} (registers : registered = true ↔ child ≠ .none)
    (stopped : ∀ code, exit = .returned code → child ≠ .running) :
    Relies child registered (exits registered exit) := by
  cases registered with
  | true =>
      cases exit with
      | returned code => exact ⟨registers.mp rfl, rfl, stopped code rfl⟩
      | _ => exact ⟨registers.mp rfl, rfl⟩
  | false =>
      cases exit with
      | returned code => exact stopped code rfl
      | _ => exact trivial

theorem relies_after {caller : Caller} {phase : Phase}
    (relies : Relies child registered (.terminating caller phase)) (stopped : child ≠ .running) :
    Relies child registered (caller.after registered) := by
  have registers : registered = true ↔ child ≠ .none :=
    iff_of_true relies.spawned.2 relies.spawned.1
  cases caller with
  | atexit exit =>
      cases exit with
      | returned code => exact stopped
      | _ => exact trivial
  | _ => exact relies_exits registers fun _ _ => stopped

theorem relies_finish {caller : Caller} (registers : s.registered = true ↔ s.child ≠ .none)
    (main : ∀ exit, caller ≠ .atexit exit) : Relies s.child s.registered (finish s caller) := by
  rw [finish]
  split
  · next none =>
    have stopped : s.child ≠ .running := by
      rw [none]
      exact Child.noConfusion
    cases caller with
    | atexit exit => exact absurd rfl (main exit)
    | _ => exact relies_exits registers fun _ _ => stopped
  · next spawned =>
    cases caller with
    | atexit exit => exact absurd rfl (main exit)
    | _ => exact ⟨spawned, registers.mpr spawned⟩

theorem relies_of_nextCheck {point after : LifePoint} (here : nextCheck point = some after)
    (relies : Relies child registered point) :
    child = .none ∧ registered = false ∧ Relies child registered after := by
  cases point <;> cases here <;> exact ⟨relies.1, relies.2, relies⟩

theorem relies_interrupted {point : LifePoint} (leads : interrupted s s.point = some point)
    (relies : Relies s.child s.registered s.point) : Relies s.child s.registered point := by
  cases here : s.point with
  | loadDns | parseUpstream | findPort | bindListen | spawn =>
      rw [here] at leads relies
      cases leads
      rw [relies.2, relies.1]
      exact trivial
  | launched =>
      rw [here] at leads relies
      cases leads
      rw [relies.2]
      exact trivial
  | waiting =>
      rw [here] at leads relies
      cases leads
      exact relies_exits (iff_of_true relies.2 relies.1) nofun
  | installing | preparing =>
      rw [here] at leads relies
      cases leads
      exact relies_exits relies nofun
  | serving =>
      rw [here] at leads relies
      cases leads
      exact relies_finish relies nofun
  | terminating caller phase =>
      rw [here] at leads relies
      have registers : s.registered = true ↔ s.child ≠ .none :=
        iff_of_true relies.spawned.2 relies.spawned.1
      cases caller with
      | atexit exit =>
          cases leads
          cases exit with
          | returned code => exact relies.2.2
          | _ => exact trivial
      | _ =>
          cases leads
          exact relies_exits registers nofun
  | gone exit =>
      rw [here] at leads
      cases leads

theorem Lived.relies (lived : Lived noAutolaunch s label next)
    (relies : Relies s.child s.registered s.point) :
    Relies next.child next.registered next.point := by
  cases lived with
  | sigint leads | handled _ leads => exact relies_interrupted (s := s) leads relies
  | unhandled _ _ => exact trivial
  | childExits running =>
      rw [running] at relies
      exact relies.ended Child.noConfusion Child.noConfusion
  | checked here => exact (relies_of_nextCheck here relies).2.2
  | refused here =>
      obtain ⟨none, unregistered, -⟩ := relies_of_nextCheck here relies
      exact relies_exits (by simp [none, unregistered]) nofun
  | noAutolaunch here _ =>
      rw [here] at relies
      simp [Relies, relies.1, relies.2]
  | spawned here _ =>
      rw [here] at relies
      exact ⟨Child.noConfusion, relies.2⟩
  | notSpawned here _ =>
      rw [here] at relies
      refine relies_exits (by simp [relies.1, relies.2]) fun _ _ => ?_
      rw [relies.1]
      exact Child.noConfusion
  | register here =>
      rw [here] at relies
      exact ⟨relies.1, rfl⟩
  | ready here =>
      rw [here] at relies
      exact iff_of_true relies.2 relies.1
  | notReady here =>
      rw [here] at relies
      exact relies
  | install here | prepare here =>
      rw [here] at relies
      exact relies
  | failed here =>
      rcases here with here | here | here <;> rw [here] at relies
      · exact relies_exits (iff_of_true relies.2 relies.1) nofun
      · exact relies_exits relies nofun
      · exact relies_exits relies nofun
  | failedServing here | acceptFails here =>
      rw [here] at relies
      exact relies_finish relies nofun
  | lives here _ | terminate here | expire here =>
      rw [here] at relies
      exact relies.phase
  | stopped here stopped | waited here stopped =>
      rw [here] at relies
      exact relies_after relies stopped
  | kill here =>
      rw [here] at relies
      by_cases running : s.child = .running
      · rw [running] at relies
        simp only [if_pos running]
        exact relies_after (relies.ended Child.noConfusion Child.noConfusion) Child.noConfusion
      · simp only [if_neg running]
        exact relies_after relies running

theorem run_relies {labels : List LifeLabel}
    (runs : run (lifeStep noAutolaunch) .start labels = some s) :
    Relies s.child s.registered s.point := by
  have initially : Relies Life.start.child Life.start.registered Life.start.point := ⟨rfl, rfl⟩
  exact run_invariant (fun s => Relies s.child s.registered s.point) initially
    (fun _ _ _ relies taken => (lived_of_lifeStep taken).relies relies) runs

/-! ## A child that is left behind -/

def LifeLabel.signal : LifeLabel → Bool
  | .sigint | .sigterm => true
  | _ => false

end TailcatSocks.Python
