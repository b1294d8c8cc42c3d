import TailcatSocks.Rust.Config

/-!
# Where the child listens and where the proxy dials

`run` resolves `--upstream` once.  The host then goes to the child as it was
typed, and to the dialler through `join_host_port`.
-/

namespace TailcatSocks.Rust

open Library

/-- `socks` -/
def socksCommand : Bytes := [115, 111, 99, 107, 115]

/-- `--listen=` -/
def listenFlag : Bytes := [45, 45, 108, 105, 115, 116, 101, 110, 61]

/-- The arguments that `spawn_socks` gives to the binary. -/
def spawnSocks (host : Bytes) (port : UInt16) : List Bytes :=
  [socksCommand, listenFlag ++ (host ++ colon :: numeral 10 port.toNat)]

/-- `free_high_port`: the first of twenty drawn ports that can be bound, or what
the system assigns. -/
def freeHighPort (draws : Nat → UInt64) (binds : Bytes → Bool) (assigned : Bytes → UInt16)
    (host : Bytes) : UInt16 :=
  (((List.range 20).map fun i => 20000 + (draws i % 41000).toUInt16).find? fun port =>
    binds (joinHostPort host port)).getD (assigned (joinHostPort host 0))

/-- What `run` makes of `--upstream`: the child's arguments, and the address
that `wait_ready` polls and the server dials. -/
structure Launch where
  childArgs : List Bytes
  upAddr : Bytes
  deriving DecidableEq, Repr

/-- The part of `run` between `--upstream` and its uses; `freeHighPort` probes
for a port when none is given. -/
def resolveUpstream (freeHighPort : Bytes → UInt16) (upstream : Bytes) :
    Except ConfigError Launch := do
  let (upHost, upPort) ← parseAddr upstream
  let upPort := if upPort = 0 then freeHighPort upHost else upPort
  pure ⟨spawnSocks upHost upPort, joinHostPort upHost upPort⟩

/-- Before its last colon, if it has one, the text has a plain or a bracketed host. -/
def JoinsUnchanged (upstream : Bytes) : Prop :=
  ∀ host portStr, SplitsAt upstream host portStr → PlainHost host ∨ BracketedHost host

theorem loopback_plain : PlainHost loopback :=
  ⟨by decide, by decide, by decide⟩

theorem plain_or_bracketed_iff {upstream host : Bytes} {port : UInt16}
    (accepts : parseAddr upstream = .ok (host, port)) :
    PlainHost host ∨ BracketedHost host ↔ JoinsUnchanged upstream := by
  rw [parseAddr_host accepts]
  rcases splitAddr_cases upstream with ⟨noColon, split⟩ | splits
  · rw [split]
    refine iff_of_true (.inl loopback_plain) fun host portStr splits => ?_
    exact absurd (splits.1 ▸ List.mem_append_right host List.mem_cons_self) noColon
  · have unchanged : JoinsUnchanged upstream ↔
        PlainHost (splitAddr upstream).1 ∨ BracketedHost (splitAddr upstream).1 := by
      constructor
      · exact fun unchanged => unchanged _ _ splits
      · intro joins host portStr splits'
        rw [splits.host_eq splits']
        exact joins
    rw [unchanged]
    split
    · next empty =>
      have nothing : PlainHost (splitAddr upstream).1 := by
        rw [List.isEmpty_iff.mp empty]
        exact ⟨List.not_mem_nil, (Option.some_ne_none _).symm, (Option.some_ne_none _).symm⟩
      exact iff_of_true (.inl loopback_plain) (.inl nothing)
    · exact Iff.rfl

/-- For every accepted `--upstream` and every resolved port, the child is told
to listen where the proxy dials exactly when the host of the text is empty, has
neither a colon nor a bracket at its ends, or has a colon and stands in one pair
of brackets. -/
theorem listens_where_dialled_iff (freeHighPort : Bytes → UInt16) {upstream host : Bytes}
    {port : UInt16} (accepts : parseAddr upstream = .ok (host, port)) :
    ∃ launch, resolveUpstream freeHighPort upstream = .ok launch ∧
      (launch.childArgs = [socksCommand, listenFlag ++ launch.upAddr] ↔
        JoinsUnchanged upstream) := by
  let resolved := if port = 0 then freeHighPort host else port
  refine ⟨⟨spawnSocks host resolved, joinHostPort host resolved⟩, ?_, ?_⟩
  · rw [resolveUpstream, accepts]
    rfl
  · rw [← plain_or_bracketed_iff accepts, ← eq_joinHostPort_iff host resolved]
    simp [spawnSocks]

/-- `[::1]:1081` -/
def bracketedUpstream : Bytes := [91, 58, 58, 49, 93, 58, 49, 48, 56, 49]

theorem listens_where_dialled_bracketed :
    ∃ launch, resolveUpstream (fun _ => 20000) bracketedUpstream = .ok launch ∧
      launch.childArgs = [socksCommand, listenFlag ++ launch.upAddr] := by
  have accepts : parseAddr bracketedUpstream = .ok ([91, 58, 58, 49, 93], 1081) := by
    decide +kernel
  have bracketed : BracketedHost [91, 58, 58, 49, 93] :=
    ⟨[58, 58, 49], rfl, by decide, by decide, by decide⟩
  obtain ⟨launch, resolved, same⟩ := listens_where_dialled_iff (fun _ => 20000) accepts
  exact ⟨launch, resolved, same.mpr ((plain_or_bracketed_iff accepts).mp (.inr bracketed))⟩

/-- `::1:1081` -/
def bareUpstream : Bytes := [58, 58, 49, 58, 49, 48, 56, 49]

/-- The child listens on `::1:1081`, and the proxy dials `[::1]:1081`. -/
theorem listens_elsewhere_bare :
    ∃ launch, resolveUpstream (fun _ => 20000) bareUpstream = .ok launch ∧
      launch.childArgs = [socksCommand, listenFlag ++ bareUpstream] ∧
      launch.upAddr = bracketedUpstream ∧ bareUpstream ≠ bracketedUpstream :=
  ⟨⟨[socksCommand, listenFlag ++ bareUpstream], bracketedUpstream⟩, by decide +kernel, rfl, rfl,
    by decide⟩

end TailcatSocks.Rust
