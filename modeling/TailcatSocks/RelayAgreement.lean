import TailcatSocks.Go.RelayPipe
import TailcatSocks.Python.Relay
import TailcatSocks.Rust.RelayPipe

/-!
# What the relays can do with the same two streams

The relays are compared by what they have read of each stream and written of
it.  The Rust relay can do all that the other two can.  The Python relay, with
one buffer, can do all that the Rust relay can only when one of the two peers
sends nothing.
-/

namespace TailcatSocks

open Library

/-- The Rust pump that reads a socket, for the sockets of the Python program. -/
def sideOf : Python.Socket ≃ Rust.Side where
  toFun
    | .client => .up
    | .upstream => .down
  invFun
    | .up => .client
    | .down => .upstream
  left_inv socket := by cases socket <;> rfl
  right_inv side := by cases side <;> rfl

/-- The same, for those of the Go program. -/
def goSideOf : Go.Socket ≃ Rust.Side where
  toFun
    | .client => .up
    | .upstream => .down
  invFun
    | .up => .client
    | .down => .upstream
  left_inv socket := by cases socket <;> rfl
  right_inv side := by cases side <;> rfl

/-- What has been read and written of the same streams is the same. -/
def SameBytes (s : Python.Relay) (r : Rust.Relay) : Prop :=
  ∀ socket, (r.pumps (sideOf socket)).source = (s.legs socket).source ∧
    (r.pumps (sideOf socket)).sent = (s.legs socket).sent

def SameBytesGo (s : Go.Relay) (r : Rust.Relay) : Prop :=
  ∀ socket, (r.pumps (goSideOf socket)).source = (s.copies socket).source ∧
    (r.pumps (goSideOf socket)).sent = (s.copies socket).sent

variable {fromClient fromUpstream : Bytes}

theorem freshPipe_comp (fromClient fromUpstream : Bytes) :
    Python.freshPipe fromClient fromUpstream ∘ sideOf.symm =
      Rust.freshPipe fromUpstream fromClient := by
  funext side
  cases side <;> rfl

theorem goFreshPipe_comp (fromClient fromUpstream : Bytes) :
    Go.freshPipe fromClient fromUpstream ∘ goSideOf.symm =
      Rust.freshPipe fromUpstream fromClient := by
  funext side
  cases side <;> rfl

theorem sameBytes_of_shows {s : Python.Relay} {r : Rust.Relay} {pipe : Python.Socket → Lane UInt8}
    (shows : Python.Shows s pipe) (shows' : Rust.Shows r (pipe ∘ sideOf.symm)) : SameBytes s r := by
  intro socket
  have here := shows' (sideOf socket)
  rw [Function.comp_apply, Equiv.symm_apply_apply] at here
  exact ⟨here.source.symm.trans (shows socket).source, here.sent.symm.trans (shows socket).sent⟩

/-- Whatever the Python relay has read and written at any time of any run, a
run of the Rust relay has, too, and goes on. -/
theorem python_within_rust (idle now wall start : Nat) {labels : List Python.RelayLabel}
    {s : Python.Relay}
    (runs : run Python.relayStep (.start start fromClient fromUpstream) labels = some s) :
    ∃ more r, run (Rust.relayStep idle) (.start now wall fromUpstream fromClient) more = some r ∧
      Rust.Running r ∧ SameBytes s r := by
  obtain ⟨motions, pipe, reaches, shows⟩ := Python.pipe_of_relay runs
  have renamed := run_reindex sideOf (run_own_of_shared reaches)
  rw [freshPipe_comp] at renamed
  obtain ⟨more, r, goes, shows', running⟩ :=
    Rust.relay_of_lanes idle now wall (run_own_iff.mp renamed)
  exact ⟨more, r, goes, running, sameBytes_of_shows shows shows'⟩

/-- The client's byte is written and the upstream's is in hand. -/
theorem python_within_rust_both :
    ∃ s, run Python.relayStep (.start 0 [71] [79])
        [.select, .ready [.client, .upstream], .recv 1, .send 1, .recv 1] = some s ∧
      ∃ more r, run (Rust.relayStep 300000) (.start 0 0 [79] [71]) more = some r ∧
        Rust.Running r ∧ SameBytes s r := by
  have runs : run Python.relayStep (.start 0 [71] [79])
      [.select, .ready [.client, .upstream], .recv 1, .send 1, .recv 1] = some _ := rfl
  exact ⟨_, runs, python_within_rust 300000 0 0 0 runs⟩

/-- Whatever the Go relay has read and written, the Rust relay can, too: its
buffers are twice as large. -/
theorem go_within_rust (idle now wall : Nat) {labels : List Go.Label} {s : Go.Relay}
    (runs : run Go.relayStep (.start fromClient fromUpstream) labels = some s) :
    ∃ more r, run (Rust.relayStep idle) (.start now wall fromUpstream fromClient) more = some r ∧
      Rust.Running r ∧ SameBytesGo s r := by
  obtain ⟨motions, pipe, reaches, shows⟩ := Go.pipe_of_relay runs
  have renamed := run_reindex goSideOf reaches
  rw [goFreshPipe_comp] at renamed
  have larger : Go.bufferSize ≤ Rust.bufferSize := by decide
  obtain ⟨more, r, goes, shows', running⟩ :=
    Rust.relay_of_lanes idle now wall
      fun side => run_laneStep_mono larger (run_own_iff.mp renamed side)
  refine ⟨more, r, goes, running, fun socket => ?_⟩
  have here := shows' (goSideOf socket)
  rw [Function.comp_apply, Equiv.symm_apply_apply] at here
  exact ⟨here.source.symm.trans (shows socket).source, here.sent.symm.trans (shows socket).sent⟩

/-- Each of the copies has a byte in hand. -/
theorem go_within_rust_both :
    ∃ s, run Go.relayStep (.start [71] [79])
        [.copy .client (.read 1), .copy .upstream (.read 1)] = some s ∧
      ∃ more r, run (Rust.relayStep 300000) (.start 0 0 [79] [71]) more = some r ∧
        Rust.Running r ∧ SameBytesGo s r := by
  have runs : run Go.relayStep (.start [71] [79])
      [.copy .client (.read 1), .copy .upstream (.read 1)] = some _ := rfl
  exact ⟨_, runs, go_within_rust 300000 0 0 runs⟩

/-- Of one of the streams everything that was read has been written. -/
theorem python_one_written {start : Nat} {labels : List Python.RelayLabel} {s : Python.Relay}
    (runs : run Python.relayStep (.start start fromClient fromUpstream) labels = some s) :
    (s.legs .client).sent ++ (s.legs .client).source = fromClient ∨
      (s.legs .upstream).sent ++ (s.legs .upstream).source = fromUpstream := by
  obtain ⟨held, whole, alone⟩ := Python.run_conserves runs
  have written (socket : Python.Socket) (nothing : held socket = []) :
      (s.legs socket).sent ++ (s.legs socket).source =
        Python.streamOf fromClient fromUpstream socket := by
    rw [(whole socket).1, nothing, List.append_nil]
  exact alone.imp (written .client) (written .upstream)

/-- A byte of each stream is read and neither is written. -/
theorem rust_takes_both (idle now wall : Nat) (client : fromClient ≠ [])
    (upstream : fromUpstream ≠ []) :
    ∃ labels r,
      run (Rust.relayStep idle) (.start now wall fromUpstream fromClient) labels = some r ∧
      ∀ side, (r.pumps side).sent = [] ∧
        (r.pumps side).source = (Rust.streamOf fromUpstream fromClient side).drop 1 := by
  let taken (side : Rust.Side) : Lane UInt8 :=
    ⟨(Rust.streamOf fromUpstream fromClient side).drop 1,
      (Rust.streamOf fromUpstream fromClient side).take 1, []⟩
  have some_bytes (side : Rust.Side) :
      1 ≤ (Rust.streamOf fromUpstream fromClient side).length := by
    cases side with
    | down => exact List.length_pos_iff.mpr upstream
    | up => exact List.length_pos_iff.mpr client
  have takes (side : Rust.Side) :
      laneStep Rust.bufferSize (Rust.freshPipe fromUpstream fromClient side) (.take 1) =
        some (taken side) :=
    laneStep_eq_some.mpr (.take rfl Nat.one_pos (by decide) (some_bytes side))
  have lanes (side : Rust.Side) : run (laneStep Rust.bufferSize)
      (Rust.freshPipe fromUpstream fromClient side)
      (onLane side [(.down, .take 1), (.up, .take 1)]) = some (taken side) := by
    cases side with
    | down => exact run_cons_of_step [] (takes .down)
    | up => exact run_cons_of_step [] (takes .up)
  obtain ⟨labels, r, goes, shows, -⟩ := Rust.relay_of_lanes idle now wall lanes
  exact ⟨labels, r, goes, fun side => ⟨(shows side).sent.symm, (shows side).source.symm⟩⟩

/-- With one peer silent, one buffer is as good as two. -/
theorem python_follows {idle now wall : Nat} (start : Nat)
    (silent : fromClient = [] ∨ fromUpstream = []) {labels : List Rust.Label} {r : Rust.Relay}
    (runs : run (Rust.relayStep idle) (.start now wall fromUpstream fromClient) labels = some r) :
    ∃ more s, run Python.relayStep (.start start fromClient fromUpstream) more = some s ∧
      SameBytes s r := by
  obtain ⟨motions, pipe, reaches, shows⟩ := Rust.pipe_of_relay runs
  have renamed := run_reindex sideOf.symm reaches
  have fresh : Rust.freshPipe fromUpstream fromClient ∘ sideOf.symm.symm =
      Python.freshPipe fromClient fromUpstream := by
    funext socket
    cases socket <;> rfl
  rw [fresh] at renamed
  have alone : ∃ i : Python.Socket, ∀ j, j ≠ i →
      (Python.freshPipe fromClient fromUpstream j).stream = [] := by
    rcases silent with silent | silent
    · refine ⟨.upstream, fun socket other => ?_⟩
      cases socket with
      | client => exact silent
      | upstream => exact absurd rfl other
    · refine ⟨.client, fun socket other => ?_⟩
      cases socket with
      | client => exact absurd rfl other
      | upstream => exact silent
  obtain ⟨i, others⟩ := alone
  obtain ⟨more, s, goes, shows', -⟩ :=
    Python.relay_of_pipe start (run_shared_of_own others renamed)
  refine ⟨more, s, goes, sameBytes_of_shows shows' ?_⟩
  intro side
  rw [Function.comp_apply, Function.comp_apply, Equiv.symm_symm, Equiv.apply_symm_apply]
  exact shows side

theorem drop_one_ne {stream : Bytes} (some_byte : stream ≠ []) : stream.drop 1 ≠ stream := by
  intro same
  have size := congrArg List.length same
  have positive := List.length_pos_iff.mpr some_byte
  rw [List.length_drop] at size
  omega

/-- The Python relay can read and write all that the Rust relay can exactly
when one of the two peers sends nothing. -/
theorem rust_within_python_iff (idle now wall start : Nat) (fromClient fromUpstream : Bytes) :
    (∀ labels r,
      run (Rust.relayStep idle) (.start now wall fromUpstream fromClient) labels = some r →
      ∃ more s, run Python.relayStep (.start start fromClient fromUpstream) more = some s ∧
        SameBytes s r) ↔
      fromClient = [] ∨ fromUpstream = [] := by
  constructor
  · intro within
    by_contra both
    rw [not_or] at both
    obtain ⟨labels, r, goes, behind⟩ := rust_takes_both idle now wall both.1 both.2
    obtain ⟨more, s, reaches, same⟩ := within labels r goes
    have short (socket : Python.Socket) : (s.legs socket).sent ++ (s.legs socket).source =
        (Rust.streamOf fromUpstream fromClient (sideOf socket)).drop 1 := by
      rw [← (same socket).1, ← (same socket).2, (behind _).1, (behind _).2, List.nil_append]
    rcases python_one_written reaches with whole | whole
    · exact drop_one_ne both.1 ((short .client).symm.trans whole)
    · exact drop_one_ne both.2 ((short .upstream).symm.trans whole)
  · intro silent labels r runs
    exact python_follows start silent runs

end TailcatSocks
