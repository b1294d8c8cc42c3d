import TailcatSocks.Go.Relay

/-!
# Half-closes and the teardown

Until the idle timer fires only the end of both copies leads to `stop`, so each
direction goes on by itself.  `stop` runs once, whoever comes first.
-/

namespace TailcatSocks.Go

open Library

@[simp]
theorem Socket.other_other (socket : Socket) : socket.other.other = socket := by
  cases socket <;> rfl

theorem Once.doStop_ne_fresh (once : Once) : once.doStop ≠ .fresh := by
  cases once <;> exact Once.noConfusion

theorem perform_self (s : Relay) (socket : Socket) (call : Call) :
    s.perform socket call socket = (s.sockets socket).call call := Function.update_self ..

theorem perform_closeWrite (s : Relay) (socket : Socket) :
    (s.perform socket .closeWrite socket).writeShut = true := by
  rw [perform_self]
  rfl

theorem perform_of_ne (s : Relay) {socket other : Socket} (call : Call)
    (different : other ≠ socket) : s.perform socket call other = s.sockets other :=
  Function.update_of_ne different ..

/-- `CloseWrite` neither shuts a socket for reading nor closes it. -/
theorem perform_closeWrite_keeps (s : Relay) (socket other : Socket) :
    (s.perform socket .closeWrite other).readShut = (s.sockets other).readShut ∧
      (s.perform socket .closeWrite other).closed = (s.sockets other).closed := by
  by_cases same : other = socket
  · subst same
    rw [perform_self]
    exact ⟨rfl, rfl⟩
  · rw [perform_of_ne s _ same]
    exact ⟨rfl, rfl⟩

/-- What is shut stays shut. -/
theorem perform_writeShut {s : Relay} {socket other : Socket} (call : Call)
    (shut : (s.sockets other).writeShut = true) :
    (s.perform socket call other).writeShut = true := by
  by_cases same : other = socket
  · subst same
    rw [perform_self]
    cases call with
    | closeWrite => rfl
    | closeRead => exact shut
    | close => exact shut
  · rwa [perform_of_ne s _ same]

/-! ## Until the timer fires -/

theorem Copied.not_done {source sink : SocketState} {c c' : Copy} {event : CopyEvent}
    (copied : Copied source sink c event c') : c.isDone = false := by
  cases copied with
  | read phase _ _ | eof phase _ | shut phase _ | readFail phase | wake phase | writePart phase _
  | writeAll phase _ | writeFail phase | closeWrite phase _ | giveUp phase _ | wgDone phase =>
      rw [Copy.isDone, phase]

theorem how_of_isDone {c : Copy} (done : c.isDone = true) : c.phase.how.isSome = true := by
  unfold Copy.isDone at done
  split at done
  · next how phase =>
    rw [phase]
    rfl
  · cases done

/-- How a copy ended does not change any more. -/
theorem Copied.how_eq {source sink : SocketState} {c c' : Copy} {event : CopyEvent} {how : End}
    (copied : Copied source sink c event c') (ended : c.phase.how = some how) :
    c'.phase.how = some how := by
  cases copied with
  | read phase _ _ | eof phase _ | shut phase _ | readFail phase | wake phase | writePart phase _
  | writeAll phase _ | writeFail phase =>
      rw [phase] at ended
      cases ended
  | closeWrite phase _ | giveUp phase _ | wgDone phase =>
      rw [phase] at ended
      exact ended

/-- Only an end of input that this side made counts as `shut`. -/
theorem Copied.how_ne_shut {source sink : SocketState} {c c' : Copy} {event : CopyEvent}
    (copied : Copied source sink c event c') (notShut : source.readShut = false)
    (genuine : c.phase.how ≠ some .shut) : c'.phase.how ≠ some .shut := by
  cases copied with
  | shut _ shut => cases notShut.symm.trans shut
  | closeWrite phase _ | giveUp phase _ | wgDone phase =>
      rw [phase] at genuine
      exact genuine
  | _ => exact fun how => by cases how

/-- What holds until the timer fires: `stop` has only begun after `wg.Wait()`. -/
structure Unfired (s : Relay) : Prop where
  fired : s.fired = 0
  begun : s.once ≠ .fresh → s.main ≠ .waiting
  waited : s.main ≠ .waiting → ∀ socket, (s.copies socket).isDone = true
  intact : s.once = .fresh → ∀ socket,
    (s.sockets socket).readShut = false ∧ (s.sockets socket).closed = false
  genuine : ∀ socket, (s.copies socket).phase.how ≠ some .shut

/-- While a copy runs, `stop` has not begun. -/
theorem Unfired.once_eq {s : Relay} (unfired : Unfired s) {socket : Socket}
    (running : (s.copies socket).isDone = false) : s.once = .fresh := by
  by_contra begun
  cases running.symm.trans (unfired.waited (unfired.begun begun) socket)

theorem Unfired.copy {s : Relay} {moved : Socket} {event : CopyEvent} {c : Copy}
    {sockets : Socket → SocketState} {armed : Bool} (unfired : Unfired s)
    (copied : Copied (s.sockets moved) (s.sockets moved.other) (s.copies moved) event c)
    (intact : ∀ socket, (s.sockets socket).readShut = false ∧ (s.sockets socket).closed = false →
      (sockets socket).readShut = false ∧ (sockets socket).closed = false) :
    Unfired { s with copies := Function.update s.copies moved c, sockets, armed } := by
  have fresh := unfired.once_eq copied.not_done
  have whole := unfired.intact fresh
  refine ⟨unfired.fired, unfired.begun, fun notWaiting => ?_, fun _ socket => ?_, ?_⟩
  · cases copied.not_done.symm.trans (unfired.waited notWaiting moved)
  · exact intact socket (whole socket)
  · exact (Function.forall_update_iff s.copies fun _ c => c.phase.how ≠ some .shut).mpr
      ⟨copied.how_ne_shut (whole moved).1 (unfired.genuine moved),
        fun other _ => unfired.genuine other⟩

theorem Unfired.step {s next : Relay} {label : Label} (unfired : Unfired s)
    (notFire : label ≠ .fire) (relayed : Relayed s label next) : Unfired next := by
  cases relayed with
  | copy copied _ => exact unfired.copy copied fun _ whole => whole
  | closeWrite copied =>
      refine unfired.copy copied fun socket whole => ?_
      obtain ⟨readShut, closed⟩ := perform_closeWrite_keeps s _ socket
      rw [readShut, closed]
      exact whole
  | fire _ => exact absurd rfl notFire
  | timerStop fired => cases unfired.fired.symm.trans fired
  | mainStop _ done =>
      exact ⟨unfired.fired, fun _ => Main.noConfusion, fun _ => done,
        fun fresh => absurd fresh (Once.doStop_ne_fresh _), unfired.genuine⟩
  | stopCall running =>
      have begun := unfired.begun (by rw [running]; exact Once.noConfusion)
      refine ⟨unfired.fired, fun _ => begun, unfired.waited, fun fresh => ?_, unfired.genuine⟩
      change (if _ then _ else _) = _ at fresh
      split at fresh <;> cases fresh
  | finish stopping _ =>
      refine ⟨unfired.fired, fun _ => Main.noConfusion, fun _ => unfired.waited ?_, unfired.intact,
        unfired.genuine⟩
      rw [stopping]
      exact Main.noConfusion

theorem start_unfired (fromClient fromUpstream : Bytes) :
    Unfired (.start fromClient fromUpstream) where
  fired := rfl
  begun begun := absurd rfl begun
  waited notWaiting := absurd rfl notWaiting
  intact _ _ := ⟨rfl, rfl⟩
  genuine _ how := by cases how

theorem run_unfired {fromClient fromUpstream : Bytes} {labels : List Label} {s : Relay}
    (runs : run relayStep (.start fromClient fromUpstream) labels = some s)
    (notFired : .fire ∉ labels) : Unfired s := by
  refine run_invariant_of_labels Unfired (fun label => label ≠ .fire)
    (start_unfired fromClient fromUpstream) ?_ ?_ runs
  · intro _ _ _ unfired notFire taken
    exact unfired.step notFire (relayed_of_relayStep taken)
  · rintro _ member rfl
    exact notFired member

/-! ## The bytes before a half-close -/

/-- The socket on which a step calls `CloseWrite`. -/
def closesWrite (entry : Relay × Label) : Option Socket :=
  match entry.2, entry.1.once with
  | .copy socket .closeWrite, _ => some socket.other
  | .stopCall, .running ((socket, .closeWrite) :: _) => some socket
  | _, _ => none

/-- Since a call of `CloseWrite` on a socket nothing was written to it. -/
def Frozen (past : List (Relay × Label)) (s : Relay) : Prop :=
  ∀ entry ∈ past, ∀ socket, closesWrite entry = some socket →
    (s.sockets socket).writeShut = true ∧
      (entry.1.copies socket.other).sent = (s.copies socket.other).sent

theorem Copied.sent_eq {source sink : SocketState} {c c' : Copy} {event : CopyEvent}
    (copied : Copied source sink c event c') (shut : sink.writeShut = true) :
    c'.sent = c.sent := by
  cases copied with
  | writePart _ notShut | writeAll _ notShut => cases notShut.symm.trans shut
  | _ => rfl

theorem Relayed.writeShut {s next : Relay} {label : Label} {socket : Socket}
    (relayed : Relayed s label next) (shut : (s.sockets socket).writeShut = true) :
    (next.sockets socket).writeShut = true := by
  cases relayed with
  | closeWrite _ => exact perform_writeShut _ shut
  | stopCall _ => exact perform_writeShut _ shut
  | _ => exact shut

theorem Relayed.sent_eq {s next : Relay} {label : Label} {socket : Socket}
    (relayed : Relayed s label next) (shut : (s.sockets socket.other).writeShut = true) :
    (next.copies socket).sent = (s.copies socket).sent := by
  have moves {moved : Socket} {event : CopyEvent} {c : Copy}
      (copied : Copied (s.sockets moved) (s.sockets moved.other) (s.copies moved) event c) :
      (Function.update s.copies moved c socket).sent = (s.copies socket).sent := by
    by_cases same : socket = moved
    · subst same
      rw [Function.update_self]
      exact copied.sent_eq shut
    · rw [Function.update_of_ne same]
  cases relayed with
  | copy copied _ => exact moves copied
  | closeWrite copied => exact moves copied
  | _ => rfl

/-- The call itself shuts the socket and writes nothing. -/
theorem Relayed.closesWrite {s next : Relay} {label : Label} {socket : Socket}
    (relayed : Relayed s label next) (closes : closesWrite (s, label) = some socket) :
    (next.sockets socket).writeShut = true ∧
      (s.copies socket.other).sent = (next.copies socket.other).sent := by
  cases relayed with
  | @copy moved event _ _ _ notClose =>
      cases event with
      | closeWrite => exact absurd rfl notClose
      | _ => cases closes
  | @closeWrite moved c _ copied =>
      cases closes
      refine ⟨perform_closeWrite s _, ?_⟩
      rw [Socket.other_other]
      change _ = (Function.update s.copies moved c moved).sent
      rw [Function.update_self]
      cases copied with
      | closeWrite _ _ => rfl
  | @stopCall moved call _ running =>
      rw [Go.closesWrite, running] at closes
      cases call with
      | closeWrite =>
          cases closes
          exact ⟨perform_closeWrite s _, rfl⟩
      | closeRead | close => cases closes
  | fire _ | timerStop _ | mainStop _ _ | finish _ _ => cases closes

theorem Frozen.step {past : List (Relay × Label)} {s next : Relay} {label : Label}
    (frozen : Frozen past s) (relayed : Relayed s label next) :
    Frozen (past ++ [(s, label)]) next := by
  intro entry member socket closes
  rcases List.mem_append.mp member with member | isNew
  · obtain ⟨shut, same⟩ := frozen entry member socket closes
    refine ⟨relayed.writeShut shut, ?_⟩
    rw [relayed.sent_eq (by rwa [Socket.other_other]), same]
  · cases List.mem_singleton.mp isNew
    exact relayed.closesWrite closes

/-- A copy that has called `closeWrite` ended without an error. -/
def Clean (past : List (Relay × Label)) (s : Relay) : Prop :=
  ∀ entry ∈ past, ∀ socket, entry.2 = .copy socket .closeWrite →
    ∃ how, (s.copies socket).phase.how = some how ∧ how.failed = false

theorem Relayed.how_eq {s next : Relay} {label : Label} {socket : Socket} {how : End}
    (relayed : Relayed s label next) (ended : (s.copies socket).phase.how = some how) :
    (next.copies socket).phase.how = some how := by
  have moves {moved : Socket} {event : CopyEvent} {c : Copy}
      (copied : Copied (s.sockets moved) (s.sockets moved.other) (s.copies moved) event c) :
      (Function.update s.copies moved c socket).phase.how = some how := by
    by_cases same : socket = moved
    · subst same
      rw [Function.update_self]
      exact copied.how_eq ended
    · rwa [Function.update_of_ne same]
  cases relayed with
  | copy copied _ => exact moves copied
  | closeWrite copied => exact moves copied
  | _ => exact ended

theorem Clean.step {past : List (Relay × Label)} {s next : Relay} {label : Label}
    (clean : Clean past s) (relayed : Relayed s label next) :
    Clean (past ++ [(s, label)]) next := by
  intro entry member socket closes
  rcases List.mem_append.mp member with member | isNew
  · obtain ⟨how, ended, succeeded⟩ := clean entry member socket closes
    exact ⟨how, relayed.how_eq ended, succeeded⟩
  · cases List.mem_singleton.mp isNew
    cases closes
    cases relayed with
    | copy _ notClose => exact absurd rfl notClose
    | @closeWrite _ c _ copied =>
        change ∃ how, (Function.update s.copies socket c socket).phase.how = _ ∧ _
        rw [Function.update_self]
        cases copied with
        | closeWrite _ succeeded => exact ⟨_, rfl, succeeded⟩

/-! ## `stop` runs once -/

/-- The call of `stop` that a step makes. -/
def madeCall (entry : Relay × Label) : Option (Socket × Call) :=
  match entry.2, entry.1.once with
  | .stopCall, .running (call :: _) => some call
  | _, _ => none

/-- Which calls `once` says were made. -/
def Once.Made : Once → List (Socket × Call) → Prop
  | .fresh, made => made = []
  | .running rest, made => rest ≠ [] ∧ made ++ rest = stop
  | .complete, made => made = stop

theorem Once.doStop_made {once : Once} {made : List (Socket × Call)} (holds : once.Made made) :
    once.doStop.Made made := by
  cases once with
  | fresh =>
      cases holds
      exact ⟨List.cons_ne_nil _ _, rfl⟩
  | running rest => exact holds
  | complete => exact holds

theorem Once.Made.isPrefix {once : Once} {made : List (Socket × Call)} (holds : once.Made made) :
    made <+: stop := by
  cases once with
  | fresh => exact holds ▸ List.nil_prefix
  | running rest => exact ⟨rest, holds.2⟩
  | complete => exact holds ▸ List.prefix_rfl

/-- What every interleaving keeps of the teardown. -/
structure StopsOnce (past : List (Relay × Label)) (s : Relay) : Prop where
  made : s.once.Made (past.filterMap madeCall)
  begun : s.main ≠ .waiting → s.once ≠ .fresh
  finished : s.main = .returned → s.once = .complete

theorem StopsOnce.step {past : List (Relay × Label)} {s next : Relay} {label : Label}
    (stopsOnce : StopsOnce past s) (relayed : Relayed s label next) :
    StopsOnce (past ++ [(s, label)]) next := by
  obtain ⟨made, begun, finished⟩ := stopsOnce
  have quiet (noCall : madeCall (s, label) = none) :
      (past ++ [(s, label)]).filterMap madeCall = past.filterMap madeCall := by
    simp [noCall]
  cases relayed with
  | copy _ _ | closeWrite _ | fire _ => exact ⟨(quiet rfl).symm ▸ made, begun, finished⟩
  | timerStop _ =>
      refine ⟨(quiet rfl).symm ▸ Once.doStop_made made, fun _ => Once.doStop_ne_fresh _, ?_⟩
      intro returned
      change s.once.doStop = _
      rw [finished returned]
      rfl
  | mainStop _ _ =>
      exact ⟨(quiet rfl).symm ▸ Once.doStop_made made, fun _ => Once.doStop_ne_fresh _,
        fun returned => by cases returned⟩
  | @stopCall socket call rest running =>
      rw [running] at made finished
      have more : (past ++ [(s, Label.stopCall)]).filterMap madeCall =
          past.filterMap madeCall ++ [(socket, call)] := by
        simp [madeCall, running]
      refine ⟨?_, fun _ fresh => ?_, fun returned => by cases finished returned⟩
      · rw [more]
        change (if rest = [] then Once.complete else .running rest).Made _
        split
        · next last =>
          rw [last] at made
          exact made.2
        · next notLast => exact ⟨notLast, by rw [List.append_assoc]; exact made.2⟩
      · change (if _ then _ else _) = _ at fresh
        split at fresh <;> cases fresh
  | finish _ complete =>
      refine ⟨(quiet rfl).symm ▸ made, fun _ fresh => ?_, fun _ => complete⟩
      cases complete.symm.trans fresh

/-! ## The teardown completes -/

/-- What is left to do once both copies have ended. -/
def Label.isTeardown : Label → Bool
  | .copy _ .closeWrite | .copy _ .wgDone | .mainStop | .stopCall | .finish => true
  | _ => false

/-- The run goes on to such a state by teardown steps. -/
def Completes (s : Relay) (reached : Relay → Prop) : Prop :=
  ∃ labels t, (∀ label ∈ labels, label.isTeardown = true) ∧ run relayStep s labels = some t ∧
    reached t

theorem Completes.now {s : Relay} {reached : Relay → Prop} (here : reached s) :
    Completes s reached :=
  ⟨[], s, fun _ member => absurd member List.not_mem_nil, rfl, here⟩

theorem Completes.next {s next : Relay} {reached : Relay → Prop} (label : Label)
    (isTeardown : label.isTeardown = true) (taken : relayStep s label = some next)
    (completes : Completes next reached) : Completes s reached := by
  obtain ⟨labels, t, all, runs, there⟩ := completes
  refine ⟨label :: labels, t, ?_, by rw [run_cons_of_step labels taken, runs], there⟩
  exact List.forall_mem_cons.mpr ⟨isTeardown, all⟩

theorem Completes.trans {s : Relay} {middle reached : Relay → Prop}
    (first : Completes s middle) (second : ∀ t, middle t → Completes t reached) :
    Completes s reached := by
  obtain ⟨labels, t, all, runs, here⟩ := first
  obtain ⟨labels', t', all', runs', there⟩ := second t here
  refine ⟨labels ++ labels', t', ?_, by rw [run_append runs, runs'], there⟩
  exact List.forall_mem_append.mpr ⟨all, all'⟩

theorem copy_step {s : Relay} {socket : Socket} {event : CopyEvent} {c : Copy}
    (moves : copyStep (s.sockets socket) (s.sockets socket.other) (s.copies socket) event =
      some c) :
    ∃ next, relayStep s (.copy socket event) = some next ∧
      next.copies = Function.update s.copies socket c ∧ next.main = s.main ∧
      next.once = s.once := by
  simp only [relayStep, moves]
  exact ⟨_, rfl, rfl, rfl, rfl⟩

/-- `socket`'s goroutine is through, and nothing else has moved. -/
def Through (s : Relay) (socket : Socket) (t : Relay) : Prop :=
  (t.copies socket).isDone = true ∧ t.copies socket.other = s.copies socket.other ∧
    t.main = s.main ∧ t.once = s.once

theorem through_of_wgDone (s : Relay) (socket : Socket) (how : End)
    (moves : copyStep (s.sockets socket) (s.sockets socket.other) (s.copies socket) .wgDone =
      some ⟨(s.copies socket).source, (s.copies socket).sent, .done how⟩) :
    Completes s (Through s socket) := by
  obtain ⟨next, taken, copies, main, once⟩ := copy_step moves
  have different : socket.other ≠ socket := by cases socket <;> exact Socket.noConfusion
  refine .next (.copy socket .wgDone) rfl taken (.now ⟨?_, ?_, main, once⟩)
  · rw [copies, Function.update_self]
    rfl
  · rw [copies, Function.update_of_ne different]

/-- A goroutine whose copy has ended gets to `wg.Done()`. -/
theorem copy_completes {s : Relay} {socket : Socket} {how : End}
    (ended : (s.copies socket).phase.how = some how) : Completes s (Through s socket) := by
  cases phase : (s.copies socket).phase with
  | reading | waking _ | writing _ =>
      rw [phase] at ended
      cases ended
  | returned _ =>
      rw [phase] at ended
      cases ended
      cases failed : how.failed with
      | true =>
          exact through_of_wgDone s socket how (by simp only [copyStep, phase, failed, if_true])
      | false =>
          have moves : copyStep (s.sockets socket) (s.sockets socket.other) (s.copies socket)
              .closeWrite =
                some ⟨(s.copies socket).source, (s.copies socket).sent, .flushed how⟩ := by
            simp only [copyStep, phase, failed, if_true]
          obtain ⟨next, taken, copies, main, once⟩ := copy_step moves
          have different : socket.other ≠ socket := by cases socket <;> exact Socket.noConfusion
          have flushed : (next.copies socket).phase = .flushed how := by
            rw [copies, Function.update_self]
          refine .next (.copy socket .closeWrite) rfl taken (.trans
            (through_of_wgDone next socket how (by simp only [copyStep, flushed])) ?_)
          rintro t ⟨done, others, sameMain, sameOnce⟩
          refine .now ⟨done, ?_, sameMain.trans main, sameOnce.trans once⟩
          rw [others, copies, Function.update_of_ne different]
  | flushed _ =>
      rw [phase] at ended
      cases ended
      exact through_of_wgDone s socket how (by simp only [copyStep, phase])
  | done _ => exact .now ⟨by rw [Copy.isDone, phase], rfl, rfl, rfl⟩

/-- Whoever runs `stop` gets to its end. -/
theorem stop_completes {rest : List (Socket × Call)} :
    ∀ {s : Relay}, rest ≠ [] → s.once = .running rest →
      Completes s fun t => t.once = .complete ∧ t.main = s.main := by
  induction rest with
  | nil => exact fun nonempty => absurd rfl nonempty
  | cons call rest ih =>
      intro s _ running
      obtain ⟨socket, call⟩ := call
      have taken : relayStep s .stopCall = some { s with
          sockets := s.perform socket call
          once := if rest = [] then .complete else .running rest } := by
        simp only [relayStep, running]
      refine .next .stopCall rfl taken ?_
      by_cases last : rest = []
      · exact .now ⟨if_pos last, rfl⟩
      · exact ih last (if_neg last)

theorem finish_completes {s : Relay} (stopping : s.main = .stopping)
    (complete : s.once = .complete) :
    Completes s fun t => t.main = .returned := by
  have taken : relayStep s .finish = some { s with armed := false, main := .returned } := by
    rw [relayStep, if_pos ⟨stopping, complete⟩]
  exact .next .finish rfl taken (.now rfl)

/-- `once.Do(stop)` returns to `relay`, whoever runs `stop`. -/
theorem stopping_completes {s : Relay} {made : List (Socket × Call)}
    (stopping : s.main = .stopping) (begun : s.once ≠ .fresh) (holds : s.once.Made made) :
    Completes s fun t => t.main = .returned := by
  cases once : s.once with
  | fresh => exact absurd once begun
  | running rest =>
      rw [once] at holds
      refine .trans (stop_completes holds.1 once) ?_
      rintro t ⟨complete, same⟩
      exact finish_completes (same.trans stopping) complete
  | complete => exact finish_completes stopping once

/-- Once both copies have ended, `relay` can get to its end. -/
theorem relay_completes {past : List (Relay × Label)} {s : Relay}
    (stopsOnce : StopsOnce past s) (ended : ∀ socket, (s.copies socket).phase.how.isSome = true) :
    Completes s fun t => t.main = .returned := by
  obtain ⟨how, clientEnded⟩ := Option.isSome_iff_exists.mp (ended .client)
  refine .trans (copy_completes clientEnded) ?_
  rintro t ⟨clientDone, others, main, once⟩
  obtain ⟨how', upstreamEnded⟩ := Option.isSome_iff_exists.mp (ended .upstream)
  have upstreamSame : t.copies .upstream = s.copies .upstream := others
  rw [← upstreamSame] at upstreamEnded
  refine .trans (copy_completes upstreamEnded) ?_
  rintro t' ⟨upstreamDone, others', main', once'⟩
  have clientSame : t'.copies .client = t.copies .client := others'
  have sameMain := main'.trans main
  have sameOnce := once'.trans once
  have made : t'.once.Made (past.filterMap madeCall) := sameOnce ▸ stopsOnce.made
  cases stands : s.main with
  | waiting =>
      have done : (t'.copies .client).isDone = true := by rw [clientSame, clientDone]
      have taken : relayStep t' .mainStop =
          some { t' with once := t'.once.doStop, main := .stopping } := by
        rw [relayStep, if_pos ⟨sameMain.trans stands, done, upstreamDone⟩]
      refine .next .mainStop rfl taken ?_
      exact stopping_completes rfl (Once.doStop_ne_fresh _) (Once.doStop_made made)
  | stopping =>
      have begun : t'.once ≠ .fresh := by
        rw [sameOnce]
        exact stopsOnce.begun (by rw [stands]; exact Main.noConfusion)
      exact stopping_completes (sameMain.trans stands) begun made
  | returned => exact .now (sameMain.trans stands)

/-! ## Every interleaving -/

theorem run_history {fromClient fromUpstream : Bytes} {labels : List Label} {s : Relay}
    (runs : run relayStep (.start fromClient fromUpstream) labels = some s) :
    let past := history relayStep (.start fromClient fromUpstream) labels
    Frozen past s ∧ Clean past s ∧ StopsOnce past s := by
  refine run_induction (fun past s => Frozen past s ∧ Clean past s ∧ StopsOnce past s) ?_ ?_ runs
  · exact ⟨fun _ member => absurd member List.not_mem_nil,
      fun _ member => absurd member List.not_mem_nil, rfl, fun begun => absurd rfl begun,
      fun returned => by cases returned⟩
  · rintro past state label next ⟨frozen, clean, stopsOnce⟩ taken
    have relayed := relayed_of_relayStep taken
    exact ⟨frozen.step relayed, clean.step relayed, stopsOnce.step relayed⟩

/-- In every interleaving: until the idle timer fires no socket is closed or
shut for reading before both copies have ended, and a copy that ends without an
error has met the end of its stream; a copy that has met it had sent the whole
stream whenever `CloseWrite` was called on its sink, by itself or by `stop`; a
copy that ended in an error never calls `CloseWrite`; and what was run of
`stop` is one run of it, a whole one once `relay` has returned, which it can
always do once both copies have ended. -/
theorem relay_half_close {fromClient fromUpstream : Bytes} {labels : List Label} {s : Relay}
    (runs : run relayStep (.start fromClient fromUpstream) labels = some s) :
    let past := history relayStep (.start fromClient fromUpstream) labels
    (.fire ∉ labels → ∀ socket,
        (s.sockets socket).readShut = true ∨ (s.sockets socket).closed = true →
          ∀ copy, (s.copies copy).phase.how.isSome = true) ∧
      (.fire ∉ labels → ∀ socket, (s.copies socket).phase.how ≠ some .shut) ∧
      (∀ socket, (s.copies socket).phase.how = some .eof →
        (s.copies socket).sent = streamOf fromClient fromUpstream socket ∧
          ∀ entry ∈ past, closesWrite entry = some socket.other →
            (entry.1.copies socket).sent = streamOf fromClient fromUpstream socket) ∧
      (∀ socket how, (s.copies socket).phase.how = some how → how.failed = true →
        ∀ entry ∈ past, entry.2 ≠ .copy socket .closeWrite) ∧
      past.filterMap madeCall <+: stop ∧
      (s.main = .returned → past.filterMap madeCall = stop) ∧
      ((∀ socket, (s.copies socket).phase.how.isSome = true) →
        ∃ more t, (∀ label ∈ more, label.isTeardown = true) ∧
          run relayStep s more = some t ∧ t.main = .returned) := by
  obtain ⟨frozen, clean, stopsOnce⟩ := run_history runs
  refine ⟨?_, fun notFired => (run_unfired runs notFired).genuine, ?_, ?_, ?_, ?_,
    relay_completes stopsOnce⟩
  · intro notFired socket touched copy
    have unfired := run_unfired runs notFired
    have begun : s.once ≠ .fresh := by
      intro fresh
      obtain ⟨readOpen, isOpen⟩ := unfired.intact fresh socket
      rcases touched with shut | closed
      · cases readOpen.symm.trans shut
      · cases isOpen.symm.trans closed
    exact how_of_isDone (unfired.waited (unfired.begun begun) copy)
  · intro socket eof
    have whole := sent_eq_of_eof (run_conserves runs socket) eof
    refine ⟨whole, fun entry member closes => ?_⟩
    obtain ⟨-, same⟩ := frozen entry member socket.other closes
    rw [Socket.other_other] at same
    rw [same, whole]
  · rintro socket how ended failed entry member closes
    obtain ⟨how', ended', succeeded⟩ := clean entry member socket closes
    cases ended.symm.trans ended'
    cases failed.symm.trans succeeded
  · exact stopsOnce.made.isPrefix
  · intro returned
    have made := stopsOnce.made
    rw [stopsOnce.finished returned] at made
    exact made

/-- The client half-closes after one byte. -/
def halfCloseAfterByte : List Label :=
  [.copy .client (.read 1), .copy .client .wake, .copy .client (.write 1), .copy .client .eof,
    .copy .client .closeWrite]

/-- The byte was written when the upstream's `CloseWrite` was called. -/
theorem relay_half_close_halfCloseAfterByte :
    ∃ s, run relayStep (.start [71] []) halfCloseAfterByte = some s ∧
      ∀ entry ∈ history relayStep (.start [71] []) halfCloseAfterByte,
        closesWrite entry = some .upstream → (entry.1.copies .client).sent = [71] := by
  obtain ⟨s, runs⟩ := Option.isSome_iff_exists.mp
    (by decide : (run relayStep (.start [71] []) halfCloseAfterByte).isSome = true)
  have how := congrArg (Option.map fun s => (s.copies .client).phase.how) runs
  have eof : some End.eof = (s.copies .client).phase.how := Option.some.inj how
  exact ⟨s, runs, ((relay_half_close runs).2.2.1 .client eof.symm).2⟩

end TailcatSocks.Go
