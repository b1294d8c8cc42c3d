import TailcatSocks.Library.Runs
import Mathlib.Logic.Function.Basic

/-!
# The scripts that start and stop the program

`bin/start.sh` and `bin/stop.sh` keep the process id of each implementation in
a file, and a process id may have come to another process by the time the file
is read.  One script runs at a time; between any two of its commands a process
may exit, and another program may begin under an id that is free.

Three things are simpler here than they are.  SIGKILL ends a process at once, so
that none is left dying when `stop.sh` removes the pid file; a launched process
has its command line from the fork on; and commands on the files of `run/`
succeed.
-/

namespace TailcatSocks.Scripts

open Library

abbrev Word := List Char

inductive Impl where
  | go
  | python
  | rust
  deriving DecidableEq, Repr

/-- A live process. -/
structure Proc where
  argv : List Word
  /-- Whether the user of the scripts may signal it. -/
  owned : Bool
  /-- The implementation as which `start.sh` has launched it. -/
  launched : Option Impl
  deriving DecidableEq, Repr

/-- `is_ours` on the command line of a live process. -/
def isOurs (argv : List Word) : Bool :=
  argv.any fun token =>
    "tailcat-socks".toList.isSuffixOf token || "tailcat_socks.py".toList.isSuffixOf token

/-- The variables that `start.sh` reads, with its own directory. -/
structure Settings where
  root : Word
  listen : Word := "127.0.0.1:1080".toList
  dnsFile : Word := root ++ "/dns.txt".toList
  upstream : Word := "127.0.0.1:0".toList
  tailcatBin : Word := "tailcat".toList
  proxyArgs : List Word := []
  deriving DecidableEq, Repr

def Settings.program (settings : Settings) : Impl → List Word
  | .go => [settings.root ++ "/go/bin/tailcat-socks".toList]
  | .python =>
      ["python3".toList, "-u".toList, settings.root ++ "/python/tailcat_socks.py".toList]
  | .rust => [settings.root ++ "/rust/target/release/tailcat-socks".toList]

def Settings.commandLine (settings : Settings) (impl : Impl) : List Word :=
  settings.program impl ++
    (["--listen".toList, settings.listen, "--dns-file".toList, settings.dnsFile,
      "--upstream".toList, settings.upstream, "--tailcat-bin".toList, settings.tailcatBin] ++
      settings.proxyArgs)

/-! ## Where a script stands -/

/-- How a script ends. -/
inductive Outcome where
  | stopped
  | notRunning
  | alreadyRunning (impl : Impl) (pid : Nat)
  | notBuilt (impl : Impl)
  | exitedImmediately (impl : Impl) (pid : Nat)
  | started (impl : Impl) (pid : Nat)
  deriving DecidableEq, Repr

/-- The commands of `stop.sh` for one pid file that it has read. -/
inductive StopLine where
  /-- `kill -0` -/
  | probe
  /-- `is_ours` -/
  | check
  /-- The pid file is stale. -/
  | stale
  /-- `kill -TERM` -/
  | term
  /-- `kill -0` in the loop, with so many rounds left. -/
  | poll (left : Nat)
  /-- `sleep 0.25` -/
  | sleep (left : Nat)
  /-- `kill -0` after the loop. -/
  | survives
  /-- `kill -KILL`, which here is the end of the process. -/
  | kill
  /-- `rm -f "$PID_FILE"` -/
  | remove
  deriving DecidableEq, Repr

inductive Point where
  | idle (last : Option Outcome)
  /-- The `for` of `stop.sh`, with the pid files that are left. -/
  | nextFile (impls : List Impl)
  | stopping (line : StopLine) (impl : Impl) (pid : Nat) (impls : List Impl)
  /-- The first line of `start.sh` that reads the pid file. -/
  | findFile (impl : Impl)
  | probeOld (impl : Impl) (pid : Nat)
  | checkOld (impl : Impl) (pid : Nat)
  | staleOld (impl : Impl) (pid : Nat)
  | build (impl : Impl)
  | launch (impl : Impl)
  /-- `echo "$PID" > "$PID_FILE"` -/
  | record (impl : Impl) (pid : Nat)
  /-- `kill -0` after `sleep 0.4`. -/
  | verify (impl : Impl) (pid : Nat)
  | removeNew (impl : Impl) (pid : Nat)
  deriving DecidableEq, Repr

inductive Command where
  | start (arg : Option Impl)
  | stop (arg : Option Impl)
  | restart (arg : Option Impl)
  deriving DecidableEq, Repr

/-- The processes, the files of `run/`, and the script. -/
structure Shell where
  procs : Nat → Option Proc
  pidFile : Impl → Option Nat
  point : Point
  /-- `STOPPED` -/
  stopped : Bool
  /-- What `restart.sh` starts when `stop.sh` has ended. -/
  restarts : Option Impl

inductive Label where
  | exits (pid : Nat)
  /-- Another program begins. -/
  | begins (pid : Nat) (argv : List Word) (owned : Bool)
  | call (command : Command)
  /-- The script's next command. -/
  | next
  /-- The binary is missing, and its build ends. -/
  | built (succeeds : Bool)
  /-- `nohup … &` -/
  | fork (settings : Settings) (pid : Nat)
  deriving DecidableEq, Repr

/-! ## The scripts -/

/-- `PID_FILES` -/
def pidFiles : Option Impl → List Impl
  | none => [.go, .python, .rust]
  | some impl => [impl]

/-- `seq 1 80` -/
def rounds : Nat := 80

/-- `kill -0` -/
def Shell.alive (s : Shell) (pid : Nat) : Bool := (s.procs pid).any Proc.owned

/-- `is_ours` -/
def Shell.ours (s : Shell) (pid : Nat) : Bool := (s.procs pid).any fun proc => isOurs proc.argv

def Shell.rm (s : Shell) (impl : Impl) : Shell :=
  { s with pidFile := Function.update s.pidFile impl none }

def Shell.call (s : Shell) : Command → Shell
  | .start arg => { s with point := .findFile (arg.getD .go), restarts := none }
  | .stop arg => { s with point := .nextFile (pidFiles arg), stopped := false, restarts := none }
  | .restart arg =>
      { s with
        point := .nextFile (pidFiles arg), stopped := false, restarts := some (arg.getD .go) }

/-- The end of `stop.sh`. -/
def Shell.stopEnds (s : Shell) : Shell :=
  match s.restarts with
  | none => { s with point := .idle (some (if s.stopped then .stopped else .notRunning)) }
  | some impl => { s with point := .findFile impl }

def stopLine (s : Shell) (impl : Impl) (pid : Nat) (impls : List Impl) : StopLine → Shell
  | .probe => { s with point := .stopping (if s.alive pid then .check else .stale) impl pid impls }
  | .check => { s with point := .stopping (if s.ours pid then .term else .stale) impl pid impls }
  | .stale => { s.rm impl with point := .nextFile impls }
  | .term => { s with point := .stopping (.poll rounds) impl pid impls, stopped := true }
  | .poll 0 => { s with point := .stopping .survives impl pid impls }
  | .poll (left + 1) =>
      { s with point := .stopping (if s.alive pid then .sleep left else .survives) impl pid impls }
  | .sleep left => { s with point := .stopping (.poll left) impl pid impls }
  | .survives =>
      { s with point := .stopping (if s.alive pid then .kill else .remove) impl pid impls }
  | .kill =>
      { s with
        procs := if s.alive pid then Function.update s.procs pid none else s.procs
        point := .stopping .remove impl pid impls }
  | .remove => { s.rm impl with point := .nextFile impls }

/-- The script's next command, where neither a build nor a new process comes of it. -/
def nextCommand (s : Shell) : Option Shell :=
  match s.point with
  | .idle _ | .launch _ => none
  | .nextFile [] => some s.stopEnds
  | .nextFile (impl :: impls) =>
      match s.pidFile impl with
      | none => some { s with point := .nextFile impls }
      | some pid => some { s with point := .stopping .probe impl pid impls }
  | .stopping line impl pid impls => some (stopLine s impl pid impls line)
  | .findFile impl =>
      match s.pidFile impl with
      | none => some { s with point := .build impl }
      | some pid => some { s with point := .probeOld impl pid }
  | .probeOld impl pid =>
      some { s with point := if s.alive pid then .checkOld impl pid else .staleOld impl pid }
  | .checkOld impl pid =>
      some { s with
        point := if s.ours pid then .idle (some (.alreadyRunning impl pid))
          else .staleOld impl pid }
  | .staleOld impl _ => some { s.rm impl with point := .build impl }
  | .build impl => some { s with point := .launch impl }
  | .record impl pid =>
      some { s with
        pidFile := Function.update s.pidFile impl (some pid), point := .verify impl pid }
  | .verify impl pid =>
      some { s with
        point := if s.alive pid then .idle (some (.started impl pid)) else .removeNew impl pid }
  | .removeNew impl pid =>
      some { s.rm impl with point := .idle (some (.exitedImmediately impl pid)) }

def shellStep (s : Shell) : Label → Option Shell
  | .exits pid =>
      if (s.procs pid).isSome then some { s with procs := Function.update s.procs pid none }
      else none
  | .begins pid argv owned =>
      if (s.procs pid).isNone then
        some { s with procs := Function.update s.procs pid (some ⟨argv, owned, none⟩) }
      else none
  | .call command =>
      match s.point with
      | .idle _ => some (s.call command)
      | _ => none
  | .next => nextCommand s
  | .built succeeds =>
      match s.point with
      | .build .python => none
      | .build impl =>
          some { s with point := if succeeds then .launch impl else .idle (some (.notBuilt impl)) }
      | _ => none
  | .fork settings pid =>
      match s.point with
      | .launch impl =>
          if (s.procs pid).isNone then
            some { s with
              procs :=
                Function.update s.procs pid (some ⟨settings.commandLine impl, true, some impl⟩)
              point := .record impl pid }
          else none
      | _ => none

variable {s next : Shell} {label : Label} {labels : List Label}

/-- What one step does. -/
inductive Stepped (s : Shell) : Label → Shell → Prop
  | exits (pid : Nat) :
      Stepped s (.exits pid) { s with procs := Function.update s.procs pid none }
  | begins {pid : Nat} (argv : List Word) (owned : Bool) : s.procs pid = none →
      Stepped s (.begins pid argv owned)
        { s with procs := Function.update s.procs pid (some ⟨argv, owned, none⟩) }
  | call {last : Option Outcome} (command : Command) : s.point = .idle last →
      Stepped s (.call command) (s.call command)
  | stopEnds : s.point = .nextFile [] → Stepped s .next s.stopEnds
  | noFile {impl : Impl} {impls : List Impl} : s.point = .nextFile (impl :: impls) →
      s.pidFile impl = none → Stepped s .next { s with point := .nextFile impls }
  | file {impl : Impl} {impls : List Impl} {pid : Nat} : s.point = .nextFile (impl :: impls) →
      s.pidFile impl = some pid →
      Stepped s .next { s with point := .stopping .probe impl pid impls }
  | stops {line : StopLine} {impl : Impl} {pid : Nat} {impls : List Impl} :
      s.point = .stopping line impl pid impls → Stepped s .next (stopLine s impl pid impls line)
  | noOld {impl : Impl} : s.point = .findFile impl → s.pidFile impl = none →
      Stepped s .next { s with point := .build impl }
  | old {impl : Impl} {pid : Nat} : s.point = .findFile impl → s.pidFile impl = some pid →
      Stepped s .next { s with point := .probeOld impl pid }
  | probeOld {impl : Impl} {pid : Nat} : s.point = .probeOld impl pid →
      Stepped s .next
        { s with point := if s.alive pid then .checkOld impl pid else .staleOld impl pid }
  | checkOld {impl : Impl} {pid : Nat} : s.point = .checkOld impl pid →
      Stepped s .next
        { s with
          point := if s.ours pid then .idle (some (.alreadyRunning impl pid))
            else .staleOld impl pid }
  | staleOld {impl : Impl} {pid : Nat} : s.point = .staleOld impl pid →
      Stepped s .next { s.rm impl with point := .build impl }
  | present {impl : Impl} : s.point = .build impl → Stepped s .next { s with point := .launch impl }
  | built {impl : Impl} (succeeds : Bool) : s.point = .build impl →
      Stepped s (.built succeeds)
        { s with point := if succeeds then .launch impl else .idle (some (.notBuilt impl)) }
  | fork {impl : Impl} {pid : Nat} (settings : Settings) : s.point = .launch impl →
      s.procs pid = none →
      Stepped s (.fork settings pid)
        { s with
          procs := Function.update s.procs pid (some ⟨settings.commandLine impl, true, some impl⟩)
          point := .record impl pid }
  | record {impl : Impl} {pid : Nat} : s.point = .record impl pid →
      Stepped s .next
        { s with
          pidFile := Function.update s.pidFile impl (some pid), point := .verify impl pid }
  | verify {impl : Impl} {pid : Nat} : s.point = .verify impl pid →
      Stepped s .next
        { s with
          point := if s.alive pid then .idle (some (.started impl pid)) else .removeNew impl pid }
  | removeNew {impl : Impl} {pid : Nat} : s.point = .removeNew impl pid →
      Stepped s .next { s.rm impl with point := .idle (some (.exitedImmediately impl pid)) }

theorem stepped_of_nextCommand (taken : nextCommand s = some next) : Stepped s .next next := by
  unfold nextCommand at taken
  split at taken
  · cases taken
  · cases taken
  · next here =>
    cases taken
    exact .stopEnds here
  · next here =>
    split at taken
    · next absent =>
      cases taken
      exact .noFile here absent
    · next pid found =>
      cases taken
      exact .file here found
  · next here =>
    cases taken
    exact .stops here
  · next here =>
    split at taken
    · next absent =>
      cases taken
      exact .noOld here absent
    · next pid found =>
      cases taken
      exact .old here found
  · next here =>
    cases taken
    exact .probeOld here
  · next here =>
    cases taken
    exact .checkOld here
  · next here =>
    cases taken
    exact .staleOld here
  · next here =>
    cases taken
    exact .present here
  · next here =>
    cases taken
    exact .record here
  · next here =>
    cases taken
    exact .verify here
  · next here =>
    cases taken
    exact .removeNew here

theorem stepped_of_shellStep (taken : shellStep s label = some next) : Stepped s label next := by
  cases label with
  | exits pid =>
      simp only [shellStep] at taken
      split at taken
      · cases taken
        exact .exits pid
      · cases taken
  | begins pid argv owned =>
      simp only [shellStep] at taken
      split at taken
      · next free =>
        cases taken
        exact .begins argv owned (Option.isNone_iff_eq_none.mp free)
      · cases taken
  | call command =>
      simp only [shellStep] at taken
      split at taken
      · next here =>
        cases taken
        exact .call command here
      · cases taken
  | next => exact stepped_of_nextCommand taken
  | built succeeds =>
      simp only [shellStep] at taken
      split at taken
      · cases taken
      · next here =>
        cases taken
        exact .built succeeds here
      · cases taken
  | fork settings pid =>
      simp only [shellStep] at taken
      split at taken
      · next here =>
        split at taken
        · next free =>
          cases taken
          exact .fork settings here (Option.isNone_iff_eq_none.mp free)
        · cases taken
      · cases taken

/-! ## One process for an implementation -/

/-- A process that `start.sh` has launched for an implementation lives. -/
def Runs (procs : Nat → Option Proc) (impl : Impl) (pid : Nat) : Prop :=
  ∃ proc, procs pid = some proc ∧ proc.launched = some impl

def Absent (procs : Nat → Option Proc) (impl : Impl) : Prop := ∀ pid, ¬ Runs procs impl pid

/-- What a script knows at a point. -/
def Known (procs : Nat → Option Proc) (pidFile : Impl → Option Nat) : Point → Prop
  | .stopping .stale impl pid _ | .stopping .remove impl pid _ =>
      pidFile impl = some pid ∧ Absent procs impl
  | .stopping _ impl pid _ | .probeOld impl pid | .checkOld impl pid | .verify impl pid =>
      pidFile impl = some pid
  | .staleOld impl _ | .removeNew impl _ => Absent procs impl
  | .build impl | .launch impl | .record impl _ => pidFile impl = none
  | _ => True

structure Kept (s : Shell) : Prop where
  ours : ∀ {pid proc impl}, s.procs pid = some proc → proc.launched = some impl →
    proc.owned = true ∧ isOurs proc.argv = true
  recorded : ∀ {impl pid}, Runs s.procs impl pid →
    s.pidFile impl = some pid ∨ s.point = .record impl pid
  known : Known s.procs s.pidFile s.point

theorem isOurs_commandLine (settings : Settings) (impl : Impl) :
    isOurs (settings.commandLine impl) = true := by
  have go : "tailcat-socks".toList <:+ settings.root ++ "/go/bin/tailcat-socks".toList :=
    (show "tailcat-socks".toList <:+ "/go/bin/tailcat-socks".toList by decide).trans
      (List.suffix_append _ _)
  have python : "tailcat_socks.py".toList <:+
      settings.root ++ "/python/tailcat_socks.py".toList :=
    (show "tailcat_socks.py".toList <:+ "/python/tailcat_socks.py".toList by decide).trans
      (List.suffix_append _ _)
  have rust : "tailcat-socks".toList <:+
      settings.root ++ "/rust/target/release/tailcat-socks".toList :=
    (show "tailcat-socks".toList <:+ "/rust/target/release/tailcat-socks".toList by decide).trans
      (List.suffix_append _ _)
  rw [isOurs, List.any_eq_true]
  cases impl with
  | go =>
      refine ⟨_, List.mem_cons_self, ?_⟩
      rw [Bool.or_eq_true, List.isSuffixOf_iff_suffix]
      exact .inl go
  | python =>
      refine ⟨_, List.mem_cons_of_mem _ (List.mem_cons_of_mem _ List.mem_cons_self), ?_⟩
      rw [Bool.or_eq_true, List.isSuffixOf_iff_suffix, List.isSuffixOf_iff_suffix]
      exact .inr python
  | rust =>
      refine ⟨_, List.mem_cons_self, ?_⟩
      rw [Bool.or_eq_true, List.isSuffixOf_iff_suffix]
      exact .inl rust

variable {procs procs' : Nat → Option Proc} {pidFile : Impl → Option Nat} {point : Point}
  {impl : Impl} {pid : Nat}

theorem runs_of_exit {gone : Nat}
    (lives : Runs (Function.update procs gone none) impl pid) : Runs procs impl pid := by
  obtain ⟨proc, here, launched⟩ := lives
  by_cases same : pid = gone
  · rw [same, Function.update_self] at here
    cases here
  · rw [Function.update_of_ne same] at here
    exact ⟨proc, here, launched⟩

theorem Known.mono (fewer : ∀ {impl pid}, Runs procs' impl pid → Runs procs impl pid)
    (known : Known procs pidFile point) : Known procs' pidFile point := by
  have absent {impl : Impl} (none : Absent procs impl) : Absent procs' impl :=
    fun pid lives => none pid (fewer lives)
  cases point with
  | stopping line impl pid impls =>
      cases line with
      | stale | remove => exact ⟨known.1, absent known.2⟩
      | _ => exact known
  | staleOld _ _ | removeNew _ _ => exact absent known
  | _ => exact known

/-- Whatever happens to the other processes, or when one has exited. -/
theorem Kept.of_procs (kept : Kept s)
    (fewer : ∀ {pid proc impl}, procs pid = some proc → proc.launched = some impl →
      s.procs pid = some proc) : Kept { s with procs := procs } := by
  have runs {impl : Impl} {pid : Nat} (lives : Runs procs impl pid) : Runs s.procs impl pid := by
    obtain ⟨proc, here, launched⟩ := lives
    exact ⟨proc, fewer here launched, launched⟩
  exact ⟨fun here launched => kept.ours (fewer here launched) launched,
    fun lives => kept.recorded (runs lives), kept.known.mono runs⟩

theorem Kept.exit (kept : Kept s) (gone : Nat) :
    Kept { s with procs := Function.update s.procs gone none } := by
  refine kept.of_procs fun {pid proc impl} here launched => ?_
  by_cases same : pid = gone
  · rw [same, Function.update_self] at here
    cases here
  · rwa [Function.update_of_ne same] at here

def Point.recording : Point → Bool
  | .record _ _ => true
  | _ => false

/-- Everywhere else the pid files have all that runs. -/
theorem Kept.file_of_runs (kept : Kept s) (settled : s.point.recording = false)
    (lives : Runs s.procs impl pid) : s.pidFile impl = some pid := by
  refine (kept.recorded lives).resolve_right fun here => ?_
  rw [here] at settled
  cases settled

theorem Kept.move (kept : Kept s) (settled : s.point.recording = false)
    (procs : next.procs = s.procs) (pidFile : next.pidFile = s.pidFile)
    (known : Known s.procs s.pidFile next.point) : Kept next := by
  obtain ⟨_, _, point, stopped, restarts⟩ := next
  subst procs pidFile
  exact ⟨kept.ours, fun lives => .inl (kept.file_of_runs settled lives), known⟩

/-- A pid file is removed once its process has exited. -/
theorem Kept.remove (kept : Kept s) (settled : s.point.recording = false)
    (absent : Absent s.procs impl)
    (known : Known s.procs (Function.update s.pidFile impl none) point) :
    Kept { s.rm impl with point := point } := by
  refine ⟨kept.ours, fun {impl' pid} lives => .inl ?_, known⟩
  have other : impl' ≠ impl := by
    rintro rfl
    exact absent pid lives
  exact (Function.update_of_ne other _ _).trans (kept.file_of_runs settled lives)

/-- Where a pid file is read, the process of its implementation is the one that
was launched, if that still lives. -/
theorem Kept.absent_of (kept : Kept s) (settled : s.point.recording = false)
    (recorded : s.pidFile impl = some pid)
    (other : ∀ proc, s.procs pid = some proc → proc.owned = true → isOurs proc.argv = true →
      proc.launched ≠ some impl) : Absent s.procs impl := by
  rintro pid' ⟨proc, here, launched⟩
  have again := kept.file_of_runs settled ⟨proc, here, launched⟩
  obtain rfl : pid = pid' := Option.some.inj (recorded.symm.trans again)
  obtain ⟨owned, ours⟩ := kept.ours here launched
  exact other proc here owned ours launched

theorem Kept.absent_of_not_alive (kept : Kept s)
    (settled : s.point.recording = false) (recorded : s.pidFile impl = some pid)
    (dead : ¬ s.alive pid = true) : Absent s.procs impl := by
  refine kept.absent_of settled recorded fun proc here owned _ _ => dead ?_
  rw [Shell.alive, here, Option.any_some, owned]

theorem Kept.absent_of_not_ours (kept : Kept s)
    (settled : s.point.recording = false) (recorded : s.pidFile impl = some pid)
    (foreign : ¬ s.ours pid = true) : Absent s.procs impl := by
  refine kept.absent_of settled recorded fun proc here _ ours _ => foreign ?_
  rw [Shell.ours, here, Option.any_some, ours]

theorem Kept.stopLine {line : StopLine} {impls : List Impl} (kept : Kept s)
    (here : s.point = .stopping line impl pid impls) : Kept (stopLine s impl pid impls line) := by
  have settled : s.point.recording = false := by
    rw [here]
    rfl
  have known := kept.known
  rw [here] at known
  cases line with
  | probe =>
      refine kept.move settled rfl rfl ?_
      simp only [Scripts.stopLine]
      split
      · exact known
      · exact ⟨known, kept.absent_of_not_alive settled known ‹_›⟩
  | check =>
      refine kept.move settled rfl rfl ?_
      simp only [Scripts.stopLine]
      split
      · exact known
      · exact ⟨known, kept.absent_of_not_ours settled known ‹_›⟩
  | stale | remove => exact kept.remove settled known.2 trivial
  | term | sleep _ =>
      exact kept.move settled rfl rfl known
  | poll left =>
      cases left with
      | zero =>
          exact kept.move settled rfl rfl known
      | succ left =>
          refine kept.move settled rfl rfl ?_
          simp only [Scripts.stopLine]
          split <;> exact known
  | survives =>
      refine kept.move settled rfl rfl ?_
      simp only [Scripts.stopLine]
      split
      · exact known
      · exact ⟨known, kept.absent_of_not_alive settled known ‹_›⟩
  | kill =>
      simp only [Scripts.stopLine]
      split
      · have killed : Absent (Function.update s.procs pid none) impl := fun pid' lives => by
          have recorded := kept.file_of_runs settled (runs_of_exit lives)
          obtain rfl : pid = pid' := Option.some.inj (known.symm.trans recorded)
          obtain ⟨proc, here, -⟩ := lives
          rw [Function.update_self] at here
          cases here
        exact (kept.exit pid).move settled rfl rfl ⟨known, killed⟩
      · next dead =>
        have absent := kept.absent_of_not_alive settled known dead
        exact kept.move settled rfl rfl ⟨known, absent⟩

theorem Kept.step (kept : Kept s) (stepped : Stepped s label next) : Kept next := by
  have settled {point : Point} (here : s.point = point) (free : point.recording = false) :
      s.point.recording = false := here ▸ free
  have known := kept.known
  cases stepped with
  | exits pid => exact kept.exit pid
  | @begins pid argv owned free =>
      refine kept.of_procs fun {pid' proc impl} here launched => ?_
      by_cases same : pid' = pid
      · rw [same, Function.update_self] at here
        cases here
        cases launched
      · rwa [Function.update_of_ne same] at here
  | call command here =>
      cases command <;> exact kept.move (settled here rfl) rfl rfl trivial
  | stopEnds here =>
      unfold Shell.stopEnds
      split <;> exact kept.move (settled here rfl) rfl rfl trivial
  | noFile here _ => exact kept.move (settled here rfl) rfl rfl trivial
  | file here found => exact kept.move (settled here rfl) rfl rfl found
  | stops here => exact kept.stopLine here
  | noOld here absent => exact kept.move (settled here rfl) rfl rfl absent
  | old here found => exact kept.move (settled here rfl) rfl rfl found
  | probeOld here =>
      have still := settled here rfl
      rw [here] at known
      refine kept.move still rfl rfl ?_
      split
      · exact known
      · exact kept.absent_of_not_alive still known ‹_›
  | checkOld here =>
      have still := settled here rfl
      rw [here] at known
      refine kept.move still rfl rfl ?_
      split
      · exact trivial
      · exact kept.absent_of_not_ours still known ‹_›
  | staleOld here =>
      rw [here] at known
      exact kept.remove (settled here rfl) known
        (Function.update_self ..)
  | present here =>
      rw [here] at known
      exact kept.move (settled here rfl) rfl rfl known
  | built succeeds here =>
      rw [here] at known
      refine kept.move (settled here rfl) rfl rfl ?_
      split
      · exact known
      · exact trivial
  | @fork impl pid settings here free =>
      rw [here] at known
      have still := settled here rfl
      refine ⟨fun {pid' proc impl'} lives launched => ?_, fun {impl' pid'} lives => ?_, known⟩
      · dsimp only at lives
        by_cases same : pid' = pid
        · rw [same, Function.update_self] at lives
          cases lives
          exact ⟨rfl, isOurs_commandLine settings impl⟩
        · rw [Function.update_of_ne same] at lives
          exact kept.ours lives launched
      · obtain ⟨proc, lives, launched⟩ := lives
        dsimp only at lives
        by_cases same : pid' = pid
        · rw [same, Function.update_self] at lives
          cases lives
          cases launched
          exact .inr (same ▸ rfl)
        · rw [Function.update_of_ne same] at lives
          exact .inl (kept.file_of_runs still ⟨proc, lives, launched⟩)
  | @record impl pid here =>
      rw [here] at known
      refine ⟨kept.ours, fun {impl' pid'} lives => .inl ?_, Function.update_self ..⟩
      rcases kept.recorded lives with file | launching
      · have other : impl' ≠ impl := by
          rintro rfl
          cases known.symm.trans file
        exact (Function.update_of_ne other _ _).trans file
      · cases here.symm.trans launching
        exact Function.update_self ..
  | verify here =>
      have still := settled here rfl
      rw [here] at known
      refine kept.move still rfl rfl ?_
      split
      · exact trivial
      · exact kept.absent_of_not_alive still known ‹_›
  | removeNew here =>
      rw [here] at known
      exact kept.remove (settled here rfl) known trivial

/-- Before any script has been called: whatever the processes and the pid files are. -/
structure Fresh (s : Shell) : Prop where
  idle : ∃ last, s.point = .idle last
  absent : ∀ impl, Absent s.procs impl

theorem Fresh.kept (fresh : Fresh s) : Kept s := by
  obtain ⟨⟨last, here⟩, absent⟩ := fresh
  refine ⟨fun lives launched => absurd ⟨_, lives, launched⟩ (absent _ _),
    fun lives => absurd lives (absent _ _), ?_⟩
  rw [here]
  exact trivial

theorem run_kept {start : Shell} (fresh : Fresh start)
    (runs : run shellStep start labels = some s) : Kept s :=
  run_invariant Kept fresh.kept (fun _ _ _ kept taken => kept.step (stepped_of_shellStep taken))
    runs

/-- Of every implementation no more than one process that `start.sh` has
launched is alive; and when no script is running, its pid file has it.  SIGKILL
is taken to end a process at once, a launched process to have its command line
at once, and commands on files to succeed. -/
theorem one_process_each {start : Shell} (fresh : Fresh start)
    (runs : run shellStep start labels = some s) :
    (∀ impl pid pid', Runs s.procs impl pid → Runs s.procs impl pid' → pid = pid') ∧
      ∀ last, s.point = .idle last → ∀ impl pid, Runs s.procs impl pid →
        s.pidFile impl = some pid := by
  have kept := run_kept fresh runs
  constructor
  · intro impl pid pid' lives lives'
    have known := kept.known
    rcases kept.recorded lives with file | here <;> rcases kept.recorded lives' with file' | here'
    · exact Option.some.inj (file.symm.trans file')
    · rw [here'] at known
      cases known.symm.trans file
    · rw [here] at known
      cases known.symm.trans file'
    · cases here.symm.trans here'
      rfl
  · intro last here impl pid lives
    exact kept.file_of_runs (by rw [here]; rfl) lives

def vacant : Shell := ⟨fun _ => none, fun _ => none, .idle none, false, none⟩

theorem fresh_vacant : Fresh vacant := by
  refine ⟨⟨none, rfl⟩, fun impl pid lives => ?_⟩
  obtain ⟨proc, here, -⟩ := lives
  cases here

def settings : Settings := { root := "/srv".toList }

/-- `start.sh` without an argument. -/
def starts : List Label := [.call (.start none), .next, .next, .fork settings 7, .next, .next]

def started : Shell where
  procs := Function.update (fun _ => none) 7 (some ⟨settings.commandLine .go, true, some .go⟩)
  pidFile := Function.update (fun _ => none) .go (some 7)
  point := .idle (some (.started .go 7))
  stopped := false
  restarts := none

theorem run_starts : run shellStep vacant starts = some started := rfl

theorem one_process_each_started :
    (∀ impl pid pid', Runs started.procs impl pid → Runs started.procs impl pid' → pid = pid') ∧
      ∀ last, started.point = .idle last → ∀ impl pid, Runs started.procs impl pid →
        started.pidFile impl = some pid :=
  one_process_each fresh_vacant run_starts

/-! ## What `stop.sh` leaves -/

/-- A line of `stop.sh` goes on with its file, or removes it and goes on to the next. -/
theorem stopLine_cases (s : Shell) (impl : Impl) (pid : Nat) (impls : List Impl)
    (line : StopLine) :
    (stopLine s impl pid impls line).restarts = s.restarts ∧
      ((∃ line', (stopLine s impl pid impls line).point = .stopping line' impl pid impls ∧
          (stopLine s impl pid impls line).pidFile = s.pidFile) ∨
        (stopLine s impl pid impls line).point = .nextFile impls ∧
          (stopLine s impl pid impls line).pidFile = Function.update s.pidFile impl none) := by
  cases line with
  | stale | remove => exact ⟨rfl, .inr ⟨rfl, rfl⟩⟩
  | poll left => cases left <;> exact ⟨rfl, .inl ⟨_, rfl, rfl⟩⟩
  | _ => exact ⟨rfl, .inl ⟨_, rfl, rfl⟩⟩

/-- The pid files of `impls` that `stop.sh` has come past are removed. -/
def Clears (impls : List Impl) (s : Shell) : Prop :=
  s.restarts = none ∧
    match s.point with
    | .idle _ => ∀ impl ∈ impls, s.pidFile impl = none
    | .nextFile rest => ∀ impl ∈ impls, impl ∉ rest → s.pidFile impl = none
    | .stopping _ now _ rest => ∀ impl ∈ impls, impl ≠ now → impl ∉ rest → s.pidFile impl = none
    | _ => False

theorem Clears.step {impls : List Impl} (clears : Clears impls s) (stepped : Stepped s label next)
    (uncalled : ∀ command, label ≠ .call command) : Clears impls next := by
  obtain ⟨alone, clears⟩ := clears
  cases stepped with
  | exits _ | begins _ _ _ => exact ⟨alone, clears⟩
  | call command _ => exact absurd rfl (uncalled command)
  | stopEnds here =>
      rw [here] at clears
      rw [Shell.stopEnds, alone]
      exact ⟨rfl, fun impl member => clears impl member List.not_mem_nil⟩
  | @noFile now rest here absent =>
      rw [here] at clears
      refine ⟨alone, fun impl member other => ?_⟩
      by_cases same : impl = now
      · exact same ▸ absent
      · exact clears impl member (List.not_mem_cons_of_ne_of_not_mem same other)
  | @file now rest pid here _ =>
      rw [here] at clears
      exact ⟨alone, fun impl member same other =>
        clears impl member (List.not_mem_cons_of_ne_of_not_mem same other)⟩
  | @stops line now pid rest here =>
      rw [here] at clears
      obtain ⟨restarts, ⟨line', stays, files⟩ | ⟨moves, files⟩⟩ :=
        stopLine_cases s now pid rest line
      · refine ⟨restarts.trans alone, ?_⟩
        rw [stays, files]
        exact clears
      · refine ⟨restarts.trans alone, ?_⟩
        rw [moves, files]
        intro impl member other
        by_cases same : impl = now
        · rw [same, Function.update_self]
        · rw [Function.update_of_ne same]
          exact clears impl member same other
  | noOld here _ | old here _ | probeOld here | checkOld here | staleOld here | present here
  | built _ here | fork _ here _ | record here | verify here | removeNew here =>
      rw [here] at clears
      exact clears.elim

/-- When `stop.sh` has ended, the pid files that it was called for are removed
and no process that `start.sh` has launched for them is alive.  This too takes
SIGKILL to end a process at once, a launched process to have its command line at
once, and commands on files to succeed. -/
theorem stop_leaves_none {start later : Shell} {arg : Option Impl} {more : List Label}
    {last : Option Outcome} (fresh : Fresh start) (runs : run shellStep start labels = some s)
    (goes : run shellStep s (.call (.stop arg) :: more) = some later)
    (uncalled : ∀ command, .call command ∉ more) (ended : later.point = .idle last) :
    ∀ impl ∈ pidFiles arg, later.pidFile impl = none ∧ Absent later.procs impl := by
  have whole : run shellStep start (labels ++ .call (.stop arg) :: more) = some later := by
    rw [run_append runs, goes]
  have kept := run_kept fresh whole
  have clears : Clears (pidFiles arg) later := by
    obtain ⟨called, taken, rest⟩ := run_cons_eq_some goes
    refine run_invariant_of_labels (Clears (pidFiles arg))
      (fun label => ∀ command, label ≠ .call command) ?_
      (fun state label next clears uncalled taken =>
        clears.step (stepped_of_shellStep taken) uncalled) ?_ rest
    · cases stepped_of_shellStep taken with
      | call _ _ => exact ⟨rfl, fun impl member other => absurd member other⟩
    · rintro label member command rfl
      exact uncalled command member
  rw [Clears, ended] at clears
  intro impl member
  have removed := clears.2 impl member
  refine ⟨removed, fun pid lives => ?_⟩
  have file := kept.file_of_runs (by rw [ended]; rfl) lives
  cases removed.symm.trans file

/-- The process exits in the first round of the loop. -/
theorem stop_leaves_none_obedient :
    ∃ later, run shellStep started [.call (.stop (some .go)), .next, .next, .next, .next, .next,
        .exits 7, .next, .next, .next, .next, .next] = some later ∧
      ∀ impl ∈ pidFiles (some .go), later.pidFile impl = none ∧ Absent later.procs impl := by
  have goes : run shellStep started [.call (.stop (some .go)), .next, .next, .next, .next, .next,
      .exits 7, .next, .next, .next, .next, .next] = some _ := rfl
  exact ⟨_, goes, stop_leaves_none fresh_vacant run_starts goes (by simp) rfl⟩

/-! ## Whom `stop.sh` signals -/

/-- The lines between `is_ours` and the removal of the pid file. -/
def StopLine.checked : StopLine → Bool
  | .probe | .check | .stale | .remove => false
  | _ => true

/-- How many rounds of the loop are left. -/
def StopLine.left : StopLine → Nat
  | .poll left | .sleep left => left
  | .survives | .kill => 0
  | _ => rounds

def Working (impl : Impl) (pid : Nat) (impls : List Impl) (s : Shell) : Prop :=
  ∃ line : StopLine, line.checked = true ∧ s.point = .stopping line impl pid impls

/-- The process has begun since. -/
def Taken (since : List (Shell × Label)) (pid : Nat) (proc : Proc) : Prop :=
  ∃ entry ∈ since, entry.2 = .begins pid proc.argv proc.owned

/-- In every round before, `kill -0` has found the process. -/
def Polled (since : List (Shell × Label)) (impl : Impl) (pid : Nat) (impls : List Impl)
    (left : Nat) : Prop :=
  ∀ round, left ≤ round → round < rounds → ∃ entry ∈ since, entry.2 = .next ∧
    entry.1.point = .stopping (.poll (round + 1)) impl pid impls ∧ entry.1.alive pid = true

/-- What can be said of a process that stands under the id of a checked one. -/
def Vetted (since : List (Shell × Label)) (s : Shell) (impl : Impl) (pid : Nat)
    (impls : List Impl) (left : Nat) : Prop :=
  ∀ proc, s.procs pid = some proc → proc.owned = true →
    Taken since pid proc ∨ isOurs proc.argv = true ∧ Polled since impl pid impls left

/-- Since the check of the process that `stop.sh` is at. -/
def Checked (past : List (Shell × Label)) (s : Shell) : Prop :=
  ∀ line impl pid impls, s.point = .stopping line impl pid impls → line.checked = true →
    ∃ since, since <:+ past ∧ (∀ entry ∈ since, Working impl pid impls entry.1) ∧
      Vetted since s impl pid impls line.left

theorem Taken.mono {since since' : List (Shell × Label)} {proc : Proc}
    (taken : Taken since pid proc) (more : since ⊆ since') : Taken since' pid proc := by
  obtain ⟨entry, member, begins⟩ := taken
  exact ⟨entry, more member, begins⟩

theorem Polled.mono {since since' : List (Shell × Label)} {impls : List Impl} {left : Nat}
    (polled : Polled since impl pid impls left) (more : since ⊆ since') :
    Polled since' impl pid impls left := by
  intro round late early
  obtain ⟨entry, member, found⟩ := polled round late early
  exact ⟨entry, more member, found⟩

/-- A step of `stop.sh` at its process, and what the other processes do meanwhile. -/
theorem Checked.extend {past : List (Shell × Label)} {line line' : StopLine} {impls : List Impl}
    (checked : Checked past s) (here : s.point = .stopping line impl pid impls)
    (vetted : line.checked = true)
    (keeps : ∀ since, Vetted since s impl pid impls line.left →
      Vetted (since ++ [(s, label)]) next impl pid impls line'.left) :
    ∃ since, since <:+ past ++ [(s, label)] ∧ (∀ entry ∈ since, Working impl pid impls entry.1) ∧
      Vetted since next impl pid impls line'.left := by
  obtain ⟨since, recent, working, holds⟩ := checked line impl pid impls here vetted
  refine ⟨since ++ [(s, label)], ?_, ?_, keeps since holds⟩
  · obtain ⟨before, rfl⟩ := recent
    exact ⟨before, (List.append_assoc ..).symm⟩
  · exact List.forall_mem_append.mpr
      ⟨working, List.forall_mem_singleton.mpr ⟨line, vetted, here⟩⟩

/-- As long as no other process comes to stand there. -/
theorem Vetted.mono {since : List (Shell × Label)} {impls : List Impl} {left : Nat}
    (vetted : Vetted since s impl pid impls left) (same : ∀ proc, next.procs pid = some proc →
      s.procs pid = some proc) (entry : Shell × Label) :
    Vetted (since ++ [entry]) next impl pid impls left := by
  intro proc here owned
  have more : since ⊆ since ++ [entry] := List.subset_append_left _ _
  exact (vetted proc (same proc here) owned).imp (·.mono more) (And.imp_right (·.mono more))

theorem Checked.stopLine {past : List (Shell × Label)} {line : StopLine} {impls : List Impl}
    (checked : Checked past s) (here : s.point = .stopping line impl pid impls) :
    Checked (past ++ [(s, .next)]) (stopLine s impl pid impls line) := by
  intro line' impl' pid' impls' there vetted
  cases line with
  | probe =>
      simp only [Scripts.stopLine] at there
      split at there <;> cases there <;> cases vetted
  | check =>
      simp only [Scripts.stopLine] at there
      split at there
      · next ours =>
        cases there
        refine ⟨[], List.nil_suffix, List.forall_mem_nil _, fun proc lives _ => .inr ⟨?_, ?_⟩⟩
        · rw [Shell.ours] at ours
          have lives : s.procs pid = some proc := lives
          rwa [lives, Option.any_some] at ours
        · exact fun round late early => absurd early (Nat.not_lt.mpr late)
      · cases there
        cases vetted
  | stale | remove => cases there
  | term =>
      cases there
      exact checked.extend here rfl fun since holds => holds.mono (fun _ => id) _
  | poll left =>
      cases left with
      | zero =>
          cases there
          exact checked.extend here rfl fun since holds => holds.mono (fun _ => id) _
      | succ left =>
          simp only [Scripts.stopLine] at there
          split at there
          · next alive =>
            cases there
            refine checked.extend here rfl fun since holds proc lives owned => ?_
            have more : since ⊆ since ++ [(s, .next)] := List.subset_append_left _ _
            refine (holds proc lives owned).imp (·.mono more) (And.imp_right ?_)
            intro polled round late early
            rcases Nat.eq_or_lt_of_le late with rfl | later
            · exact ⟨_, List.mem_append_right _ List.mem_cons_self, rfl, here, alive⟩
            · exact polled.mono more round later early
          · next dead =>
            cases there
            refine checked.extend here rfl fun since _ proc lives owned => absurd ?_ dead
            have lives : s.procs pid = some proc := lives
            rw [Shell.alive, lives, Option.any_some, owned]
  | sleep left =>
      cases there
      exact checked.extend here rfl fun since holds => holds.mono (fun _ => id) _
  | survives =>
      simp only [Scripts.stopLine] at there
      split at there
      · cases there
        exact checked.extend here rfl fun since holds => holds.mono (fun _ => id) _
      · cases there
        cases vetted
  | kill =>
      cases there
      cases vetted

theorem Checked.step {past : List (Shell × Label)} (checked : Checked past s)
    (stepped : Stepped s label next) : Checked (past ++ [(s, label)]) next := by
  cases stepped with
  | exits gone =>
      intro line impl pid impls here vetted
      refine checked.extend here vetted fun since holds => holds.mono (fun proc lives => ?_) _
      dsimp only at lives
      by_cases same : pid = gone
      · rw [same, Function.update_self] at lives
        cases lives
      · rwa [Function.update_of_ne same] at lives
  | @begins taken argv owned free =>
      intro line impl pid impls here vetted
      refine checked.extend here vetted fun since holds => ?_
      by_cases same : pid = taken
      · subst same
        intro proc lives _
        dsimp only at lives
        rw [Function.update_self] at lives
        cases lives
        exact .inl ⟨_, List.mem_append_right _ List.mem_cons_self, rfl⟩
      · refine holds.mono (fun proc lives => ?_) _
        dsimp only at lives
        rwa [Function.update_of_ne same] at lives
  | call command _ => cases command <;> exact fun _ _ _ _ there => by cases there
  | stopEnds _ =>
      intro _ _ _ _ there
      rw [Shell.stopEnds] at there
      split at there <;> cases there
  | file _ _ =>
      intro _ _ _ _ there vetted
      cases there
      cases vetted
  | stops here => exact checked.stopLine here
  | probeOld _ | checkOld _ | verify _ | built _ _ =>
      intro _ _ _ _ there
      dsimp only at there
      split at there <;> cases there
  | noFile _ _ | noOld _ _ | old _ _ | staleOld _ | present _ | fork _ _ _ | record _
  | removeNew _ => exact fun _ _ _ _ there => by cases there

/-- Whoever gets a signal from `stop.sh` has passed `is_ours`, and has outlived
every round of the loop when the signal is SIGKILL; or it has begun since the
check, under the id of a process that has exited. -/
theorem signals_ours_or_taken {start : Shell} {last : Option Outcome} {line : StopLine}
    {impls : List Impl} (idle : start.point = .idle last)
    (runs : run shellStep start labels = some s) (signals : line = .term ∨ line = .kill)
    (here : s.point = .stopping line impl pid impls) :
    ∃ since, since <:+ history shellStep start labels ∧
      (∀ entry ∈ since, Working impl pid impls entry.1) ∧
      ∀ proc, s.procs pid = some proc → proc.owned = true →
        Taken since pid proc ∨
          isOurs proc.argv = true ∧ (line = .kill → Polled since impl pid impls 0) := by
  have checked := run_induction Checked
    (fun _ _ _ _ there => by cases idle.symm.trans there)
    (fun _ _ _ _ checked taken => checked.step (stepped_of_shellStep taken)) runs
  have vetted : line.checked = true := by rcases signals with rfl | rfl <;> rfl
  obtain ⟨since, recent, working, holds⟩ := checked line impl pid impls here vetted
  refine ⟨since, recent, working, fun proc lives owned => ?_⟩
  refine (holds proc lives owned).imp_right (And.imp_right ?_)
  rintro polled rfl
  exact polled

/-- Just before SIGTERM. -/
theorem signals_ours_or_taken_once :
    ∃ s, run shellStep started [.call (.stop none), .next, .next, .next] = some s ∧
      ∃ since, since <:+ history shellStep started [.call (.stop none), .next, .next, .next] ∧
        (∀ entry ∈ since, Working .go 7 [.python, .rust] entry.1) ∧
        ∀ proc, s.procs 7 = some proc → proc.owned = true →
          Taken since 7 proc ∨ isOurs proc.argv = true ∧
            (StopLine.term = .kill → Polled since .go 7 [.python, .rust] 0) := by
  have runs : run shellStep started [.call (.stop none), .next, .next, .next] = some _ := rfl
  exact ⟨_, runs, signals_ours_or_taken rfl runs (.inl rfl) rfl⟩

end TailcatSocks.Scripts
