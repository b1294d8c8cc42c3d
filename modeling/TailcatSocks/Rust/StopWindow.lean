import TailcatSocks.Rust.Lifecycle
import TailcatSocks.Scripts

/-!
# How long `stop.sh` waits

`bin/stop.sh` sends SIGTERM, looks eighty times a quarter of a second apart
whether the process is gone, and then sends SIGKILL, which leaves the child of
the process alone.  The twenty seconds are exactly enough for a signal that
comes 1199 milliseconds after the program has begun, or later.
-/

namespace TailcatSocks.Rust

open Library

variable {noAutolaunch : Bool} {s : Life} {labels : List LifeLabel}

/-! ## Waiting -/

theorem not_rests_of_nextCheck {point after : LifePoint} (here : nextCheck point = some after) :
    ¬ Rests s point := by
  cases point <;> cases here <;> exact id

/-- Where `run` waits and what it waits for has not come, nothing is left to do. -/
theorem atRest_of_rests (rests : Rests s s.point) (accepts : s.point = .select → s.serve ≠ .ended)
    (lives : ∀ code killAt, s.point = .waiting code killAt → s.child ≠ .exited) :
    s.AtRest noAutolaunch := by
  intro label prompt
  refine Option.eq_none_iff_forall_ne_some.mpr fun next taken => ?_
  have lived := lived_of_lifeStep taken
  cases lived with
  | tick | signal | childExits _ | serveEnds _ | cancelled _ | connected _ | notConnected _ =>
      cases prompt
  | checked here | refused here => exact not_rests_of_nextCheck here rests
  | elapse here due | wake here due | kill here due =>
      rw [here] at rests
      exact Nat.not_le.mpr rests due
  | selectSignal here signalled =>
      rw [here] at rests
      exact Bool.noConfusion (signalled.symm.trans rests)
  | selectServe here ended => exact accepts here ended
  | reapWaiting here exited => exact lives _ _ here exited
  | poll here _ | noAutolaunch here _ | spawned here _ | notSpawned here _ | giveUp here _
  | abandon here | start here | abort here | noChild here _ | terminate here _ _
  | reapKilled here _ | dies here _ =>
      rw [here] at rests
      exact rests.elim

def polls (now deadline : Nat) : Life := ⟨now, .polling deadline, .running, .idle, false⟩

def Life.signal (s : Life) : Life := { s with signalled := true }

theorem Lived.signalled {label : LifeLabel} {next : Life} (lived : Lived noAutolaunch s label next)
    (unasked : label.asks = false) (heard : label.heard = true) :
    lifeStep noAutolaunch s.signal label = some next.signal := by
  have child : (if label = .spawn true then .running else s.child) = next.child := by
    cases lived with
    | signal | childExits _ => cases heard
    | dies _ _ | selectSignal _ _ | reapWaiting _ _ | reapKilled _ _ => cases unasked
    | _ => rfl
  have kept := @Lived.deaf _ _ _ _ lived unasked heard s.child Iff.rfl Iff.rfl true
  rw [child] at kept
  exact kept

/-- But at the `select!`, a signal leaves nothing to do either. -/
theorem Life.AtRest.signal (atRest : s.AtRest noAutolaunch) (relies : Relies s s.point)
    (before : s.point ≠ .select) : s.signal.AtRest noAutolaunch := by
  have rests := rests_of_atRest atRest relies
  have lives (code killAt : Nat) (here : s.point = .waiting code killAt) : s.child ≠ .exited := by
    intro exited
    simpa [lifeStep, here, exited] using atRest .reap rfl
  refine atRest_of_rests ?_ (fun here => absurd here before) lives
  cases here : s.point with
  | select => exact absurd here before
  | _ =>
      rw [here] at rests
      simp only [Life.signal, here]
      exact rests

theorem Lived.now_le {label : LifeLabel} {next : Life} (lived : Lived noAutolaunch s label next) :
    next.now ≤ s.now + 1 := by
  cases lived <;> first | exact Nat.le_refl _ | exact Nat.le_succ _

/-- The labels of a launch that goes on undisturbed. -/
def LifeLabel.launching (label : LifeLabel) : Bool :=
  !label.asks && label.heard && label != .start

end TailcatSocks.Rust
