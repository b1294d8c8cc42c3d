import Mathlib.Tactic.Common
import Mathlib.Data.List.OfFn

/-!
# Byte connections

A connection is seen from one of its ends: the bytes that the peer still sends
before it closes, and the bytes written so far.  Programs over a connection are
`EStateM` actions, so that an early exit keeps what was already read and
written.  `readExact` and `writeAll` are the only two operations; each is one
await, unless it moves no byte at all.

A connection may carry one `Cut`: a point in its sequence of awaits from which
no operation completes any more, because a deadline ran out or the transport
failed.  The bytes that the cut operation had already moved stay moved.
-/

namespace TailcatSocks.Library

abbrev Bytes := List UInt8

/-- An array of exactly `count` bytes. -/
abbrev Block (count : Nat) := { bytes : Bytes // bytes.length = count }

/-- The byte at an index below `count`. -/
def Block.get {count : Nat} (block : Block count) (index : Nat) : UInt8 := block.1.getD index 0

theorem Block.eq_ofFn {count : Nat} (block : Block count) :
    block.1 = List.ofFn fun index : Fin count => block.get index := by
  obtain ⟨bytes, rfl⟩ := block
  refine List.ext_getElem (by rw [List.length_ofFn]) fun index inside _ => ?_
  rw [List.getElem_ofFn, Block.get, List.getD_eq_getElem?_getD, List.getElem?_eq_getElem inside,
    Option.getD_some]

theorem block_one (block : Block 1) : block.1 = [block.get 0] := block.eq_ofFn

theorem block_four (block : Block 4) :
    block.1 = [block.get 0, block.get 1, block.get 2, block.get 3] := block.eq_ofFn

/-- The 16-bit word with these two bytes, the high one first. -/
def fromBeBytes (word : Block 2) : UInt16 :=
  UInt16.ofNat (256 * (word.get 0).toNat + (word.get 1).toNat)

def toBeBytes (word : UInt16) : Block 2 :=
  ⟨[UInt8.ofNat (word.toNat / 256), UInt8.ofNat word.toNat], rfl⟩

theorem fromBeBytes_toBeBytes (word : UInt16) : fromBeBytes (toBeBytes word) = word := by
  have bound := word.toNat_lt
  apply UInt16.toNat_inj.mp
  change (256 * (UInt8.ofNat (word.toNat / 256)).toNat + (UInt8.ofNat word.toNat).toNat) % 65536 =
    word.toNat
  rw [UInt8.toNat_ofNat', UInt8.toNat_ofNat']
  omega

theorem toBeBytes_fromBeBytes (word : Block 2) : toBeBytes (fromBeBytes word) = word := by
  have two : word.1 = [word.get 0, word.get 1] := word.eq_ofFn
  have highBound := (word.get 0).toNat_lt
  have lowBound := (word.get 1).toNat_lt
  have value : (fromBeBytes word).toNat = 256 * (word.get 0).toNat + (word.get 1).toNat := by
    change (256 * (word.get 0).toNat + (word.get 1).toNat) % 65536 = _
    omega
  have highByte : (256 * (word.get 0).toNat + (word.get 1).toNat) / 256 = (word.get 0).toNat := by
    omega
  have lowByte : UInt8.ofNat (256 * (word.get 0).toNat + (word.get 1).toNat) = word.get 1 := by
    apply UInt8.toNat_inj.mp
    rw [UInt8.toNat_ofNat']
    omega
  apply Subtype.ext
  rw [toBeBytes, value, highByte, lowByte, UInt8.ofNat_toNat, two]

/-! ## Outcomes of state and exception programs -/

section Programs

variable {ε δ σ τ α β : Type}

theorem bind_of_ok {first : EStateM ε σ α} {next : α → EStateM ε σ β} {s t : σ} {a : α}
    (done : first s = .ok a t) : (first >>= next) s = next a t := by
  change EStateM.bind first next s = next a t
  simp only [EStateM.bind, done]

theorem bind_of_error {first : EStateM ε σ α} {next : α → EStateM ε σ β} {s t : σ} {e : ε}
    (failed : first s = .error e t) : (first >>= next) s = .error e t := by
  change EStateM.bind first next s = .error e t
  simp only [EStateM.bind, failed]

/-- A sequence succeeds exactly when both parts do, one after the other. -/
theorem bind_eq_ok {first : EStateM ε σ α} {next : α → EStateM ε σ β} {s u : σ} {b : β} :
    (first >>= next) s = .ok b u ↔ ∃ a t, first s = .ok a t ∧ next a t = .ok b u := by
  cases outcome : first s with
  | ok a t =>
      rw [bind_of_ok outcome]
      constructor
      · exact fun rest => ⟨a, t, rfl, rest⟩
      · rintro ⟨a', t', same, rest⟩
        cases same
        exact rest
  | error e t =>
      rw [bind_of_error outcome]
      constructor
      · intro impossible
        cases impossible
      · rintro ⟨a', t', same, rest⟩
        cases same

/-- A sequence fails when one of its parts does. -/
theorem bind_eq_error {first : EStateM ε σ α} {next : α → EStateM ε σ β} {s u : σ} {e : ε}
    (failed : (first >>= next) s = .error e u) :
    first s = .error e u ∨ ∃ a t, first s = .ok a t ∧ next a t = .error e u := by
  cases outcome : first s with
  | ok a t => exact .inr ⟨a, t, rfl, (bind_of_ok outcome).symm.trans failed⟩
  | error e' t =>
      rw [bind_of_error outcome] at failed
      cases failed
      exact .inl rfl

theorem pure_eq_ok {s t : σ} {a b : α} :
    (pure a : EStateM ε σ α) s = .ok b t ↔ a = b ∧ s = t := by
  change EStateM.Result.ok a s = .ok b t ↔ a = b ∧ s = t
  rw [EStateM.Result.ok.injEq]

theorem map_of_ok {program : EStateM ε σ α} (f : α → β) {s t : σ} {a : α}
    (done : program s = .ok a t) : (f <$> program) s = .ok (f a) t := by
  change EStateM.map f program s = .ok (f a) t
  simp only [EStateM.map, done]

theorem map_of_error {program : EStateM ε σ α} (f : α → β) {s t : σ} {e : ε}
    (failed : program s = .error e t) : (f <$> program) s = .error e t := by
  change EStateM.map f program s = .error e t
  simp only [EStateM.map, failed]

theorem map_eq_ok {program : EStateM ε σ α} {f : α → β} {s t : σ} {b : β} :
    (f <$> program) s = .ok b t ↔ ∃ a, program s = .ok a t ∧ f a = b := by
  rw [map_eq_pure_bind, bind_eq_ok]
  constructor
  · rintro ⟨a, u, done, last⟩
    obtain ⟨same, rfl⟩ := pure_eq_ok.mp last
    exact ⟨a, done, same⟩
  · rintro ⟨a, done, same⟩
    exact ⟨a, t, done, pure_eq_ok.mpr ⟨same, rfl⟩⟩

@[simp]
theorem throw_apply (e : ε) (s : σ) : (throw e : EStateM ε σ α) s = .error e s := rfl

/-- Run a program on one part of a larger state. -/
def onPart (read : σ → τ) (write : σ → τ → σ) (program : EStateM ε τ α) : EStateM ε σ α :=
  fun s =>
    match program (read s) with
    | .ok a t => .ok a (write s t)
    | .error e t => .error e (write s t)

theorem onPart_of_ok {read : σ → τ} {write : σ → τ → σ} {program : EStateM ε τ α} {s : σ}
    {a : α} {t : τ} (done : program (read s) = .ok a t) :
    onPart read write program s = .ok a (write s t) := by
  simp only [onPart, done]

theorem onPart_of_error {read : σ → τ} {write : σ → τ → σ} {program : EStateM ε τ α} {s : σ}
    {e : ε} {t : τ} (failed : program (read s) = .error e t) :
    onPart read write program s = .error e (write s t) := by
  simp only [onPart, failed]

theorem onPart_eq_ok {read : σ → τ} {write : σ → τ → σ} {program : EStateM ε τ α} {s u : σ}
    {a : α} (done : onPart read write program s = .ok a u) :
    ∃ t, program (read s) = .ok a t ∧ u = write s t := by
  unfold onPart at done
  split at done <;> cases done
  exact ⟨_, ‹_›, rfl⟩

theorem onPart_map (read : σ → τ) (write : σ → τ → σ) (f : α → β) (program : EStateM ε τ α) :
    onPart read write (f <$> program) = f <$> onPart read write program := by
  funext s
  cases outcome : program (read s) with
  | ok a t => exact (onPart_of_ok (map_of_ok f outcome)).trans (map_of_ok f (onPart_of_ok outcome)).symm
  | error e t =>
      exact (onPart_of_error (map_of_error f outcome)).trans
        (map_of_error f (onPart_of_error outcome)).symm

/-- Turn a failure into an ordinary result, keeping the state it left. -/
def attempt (program : EStateM ε σ α) : EStateM ε σ (Except ε α) :=
  fun s =>
    match program s with
    | .ok a t => .ok (.ok a) t
    | .error e t => .ok (.error e) t

theorem attempt_of_ok {program : EStateM ε σ α} {s t : σ} {a : α}
    (done : program s = .ok a t) : attempt program s = .ok (.ok a) t := by
  simp only [attempt, done]

theorem attempt_of_error {program : EStateM ε σ α} {s t : σ} {e : ε}
    (failed : program s = .error e t) : attempt program s = .ok (.error e) t := by
  simp only [attempt, failed]

/-- The state a program leaves, whichever way it ends. -/
def after (program : EStateM ε σ α) (s : σ) : σ :=
  match program s with
  | .ok _ t => t
  | .error _ t => t

theorem after_of_ok {program : EStateM ε σ α} {s t : σ} {a : α}
    (done : program s = .ok a t) : after program s = t := by
  simp only [after, done]

theorem after_of_error {program : EStateM ε σ α} {s t : σ} {e : ε}
    (failed : program s = .error e t) : after program s = t := by
  simp only [after, failed]

theorem after_bind_of_ok {first : EStateM ε σ α} {next : α → EStateM ε σ β} {s t : σ} {a : α}
    (done : first s = .ok a t) : after (first >>= next) s = after (next a) t := by
  rw [after, after, bind_of_ok done]

theorem after_onPart (read : σ → τ) (write : σ → τ → σ) (program : EStateM ε τ α) (s : σ) :
    after (onPart read write program) s = write s (after program (read s)) := by
  cases outcome : program (read s) with
  | ok a t => rw [after_of_ok (onPart_of_ok outcome), after_of_ok outcome]
  | error e t => rw [after_of_error (onPart_of_error outcome), after_of_error outcome]

/-- Two outcomes with the same result and the same state; failures may carry
different values. -/
inductive SameOutcome : EStateM.Result ε σ α → EStateM.Result δ σ α → Prop where
  | ok (a : α) (s : σ) : SameOutcome (.ok a s) (.ok a s)
  | error (e : ε) (d : δ) (s : σ) : SameOutcome (.error e s) (.error d s)

namespace SameOutcome

/-- Sequences have the same outcome when what follows does, where it is reached. -/
theorem bind {left : EStateM ε σ α} {right : EStateM δ σ α} {nextLeft : α → EStateM ε σ β}
    {nextRight : α → EStateM δ σ β} {s : σ} (first : SameOutcome (left s) (right s))
    (rest : ∀ a t, left s = .ok a t → SameOutcome (nextLeft a t) (nextRight a t)) :
    SameOutcome ((left >>= nextLeft) s) ((right >>= nextRight) s) := by
  generalize leftIs : left s = l at first
  generalize rightIs : right s = r at first
  cases first with
  | ok a t =>
      rw [bind_of_ok leftIs, bind_of_ok rightIs]
      exact rest a t leftIs
  | error e d t =>
      rw [bind_of_error leftIs, bind_of_error rightIs]
      exact .error e d t

theorem onPart {read : σ → τ} {write : σ → τ → σ} {left : EStateM ε τ α}
    {right : EStateM δ τ α} {s : σ} (same : SameOutcome (left (read s)) (right (read s))) :
    SameOutcome (onPart read write left s) (onPart read write right s) := by
  generalize leftIs : left (read s) = l at same
  generalize rightIs : right (read s) = r at same
  cases same with
  | ok a t =>
      rw [onPart_of_ok leftIs, onPart_of_ok rightIs]
      exact .ok a _
  | error e d t =>
      rw [onPart_of_error leftIs, onPart_of_error rightIs]
      exact .error e d _

end SameOutcome

/-- Two programs agree when they have the same outcome from every state. -/
def Agree (left : EStateM ε σ α) (right : EStateM δ σ α) : Prop :=
  ∀ s, SameOutcome (left s) (right s)

namespace Agree

theorem pure (a : α) : Agree (Pure.pure a : EStateM ε σ α) (Pure.pure a : EStateM δ σ α) :=
  fun s => .ok a s

theorem throw (e : ε) (d : δ) :
    Agree (MonadExcept.throw e : EStateM ε σ α) (MonadExcept.throw d : EStateM δ σ α) :=
  fun s => .error e d s

theorem bind {left : EStateM ε σ α} {right : EStateM δ σ α} {nextLeft : α → EStateM ε σ β}
    {nextRight : α → EStateM δ σ β} (first : Agree left right)
    (rest : ∀ a, Agree (nextLeft a) (nextRight a)) :
    Agree (left >>= nextLeft) (right >>= nextRight) :=
  fun s => (first s).bind fun a t _ => rest a t

theorem ite {left left' : EStateM ε σ α} {right right' : EStateM δ σ α} (condition : Prop)
    [Decidable condition] (yes : Agree left right) (no : Agree left' right') :
    Agree (if condition then left else left') (if condition then right else right') := by
  split
  · exact yes
  · exact no

theorem onPart {read : σ → τ} {write : σ → τ → σ} {left : EStateM ε τ α}
    {right : EStateM δ τ α} (agree : Agree left right) :
    Agree (onPart read write left) (onPart read write right) :=
  fun s => (agree (read s)).onPart

/-- Programs that agree leave the same state. -/
theorem after_eq {left : EStateM ε σ α} {right : EStateM δ σ α} (agree : Agree left right)
    (s : σ) : after left s = after right s := by
  have same := agree s
  unfold after
  generalize left s = l at same ⊢
  generalize right s = r at same ⊢
  cases same <;> rfl

end Agree

/-- An outcome in which a failure counts as `fallback`. -/
def recover (fallback : α) : EStateM.Result ε σ α → α × σ
  | .ok a t => (a, t)
  | .error _ t => (fallback, t)

theorem recover_snd (fallback : α) (program : EStateM ε σ α) (s : σ) :
    (recover fallback (program s)).2 = after program s := by
  unfold recover after
  cases program s with
  | ok a t => rfl
  | error e t => rfl

/-- A sequence goes on from what was recovered, if it makes nothing of the fallback. -/
theorem recover_bind (fallback : α) {last : β} {first : EStateM ε σ α}
    {next : α → EStateM ε σ β} (s : σ)
    (nothing : ∀ t, recover last (next fallback t) = (last, t)) :
    recover last ((first >>= next) s) =
      recover last (next (recover fallback (first s)).1 (recover fallback (first s)).2) := by
  cases outcome : first s with
  | ok a t => rw [bind_of_ok outcome, recover]
  | error e t => rw [bind_of_error outcome, recover, recover, nothing]

theorem eq_ok_of_recover {fallback a : α} {outcome : EStateM.Result ε σ α} {t : σ}
    (recovered : recover fallback outcome = (a, t)) (other : a ≠ fallback) : outcome = .ok a t := by
  cases outcome with
  | ok b u => cases recovered; rfl
  | error e u => cases recovered; exact absurd rfl other

theorem recover_onPart {fallback : α} (read : σ → τ) (write : σ → τ → σ)
    (program : EStateM ε τ α) (s : σ) :
    recover fallback (onPart read write program s) =
      ((recover fallback (program (read s))).1, write s (recover fallback (program (read s))).2) := by
  cases outcome : program (read s) with
  | ok a t => rw [onPart_of_ok outcome]; rfl
  | error e t => rw [onPart_of_error outcome]; rfl

/-- Sequences that begin alike recover alike when what follows does. -/
theorem recover_bind_congr {last : β} {left : EStateM ε σ α} {right : EStateM δ σ α}
    {nextLeft : α → EStateM ε σ β} {nextRight : α → EStateM δ σ β} {s : σ}
    (first : SameOutcome (left s) (right s))
    (rest : ∀ a t, left s = .ok a t →
      recover last (nextLeft a t) = recover last (nextRight a t)) :
    recover last ((left >>= nextLeft) s) = recover last ((right >>= nextRight) s) := by
  generalize leftIs : left s = l at first
  generalize rightIs : right s = r at first
  cases first with
  | ok a t =>
      rw [bind_of_ok leftIs, bind_of_ok rightIs]
      exact rest a t leftIs
  | error e d t =>
      rw [bind_of_error leftIs, bind_of_error rightIs]
      rfl

end Programs

/-! ## Connections -/

/-- Why an operation ends without its result. -/
inductive Fault where
  /-- The peer closed before the read was filled. -/
  | eof
  /-- The transport reported an error. -/
  | failed
  /-- The surrounding deadline ran out. -/
  | elapsed
  deriving DecidableEq, Repr

/-- The point from which no operation completes: `awaits` more of them do, and
the next one ends in `fault` after moving `progress` bytes. -/
structure Cut where
  awaits : Nat
  progress : Nat
  fault : Fault
  deriving DecidableEq, Repr

structure Conn where
  unread : Bytes
  written : Bytes
  cut : Option Cut
  deriving DecidableEq, Repr

namespace Conn

/-- A fresh connection whose peer sends these bytes and closes. -/
def ofBytes (stream : Bytes) : Conn := ⟨stream, [], none⟩

/-- The cut, when it falls within the next `count` awaits. -/
def cutWithin (conn : Conn) (count : Nat) : Option Cut :=
  conn.cut.filter (fun cut => cut.awaits < count)

/-- The connection after `count` more awaits, with `unread` left to read and
`bytes` written since. -/
def advance (conn : Conn) (count : Nat) (unread bytes : Bytes) : Conn :=
  ⟨unread, conn.written ++ bytes, conn.cut.map fun cut => { cut with awaits := cut.awaits - count }⟩

/-- The cut leaves room for `count` more awaits. -/
def Admits (conn : Conn) (count : Nat) : Prop :=
  ∀ cut, conn.cut = some cut → count ≤ cut.awaits

instance (conn : Conn) (count : Nat) : Decidable (conn.Admits count) :=
  decidable_of_iff (∀ cut ∈ conn.cut, count ≤ cut.awaits) Iff.rfl

theorem cutWithin_eq_none_iff (conn : Conn) (count : Nat) :
    conn.cutWithin count = none ↔ conn.Admits count := by
  simp only [cutWithin, Option.filter_eq_none_iff, Admits, decide_eq_true_eq, Nat.not_lt]

theorem admits_of_uncut {conn : Conn} (uncut : conn.cut = none) (count : Nat) :
    conn.Admits count := by
  intro cut present
  rw [uncut] at present
  cases present

@[simp]
theorem advance_unread (conn : Conn) (count : Nat) (unread bytes : Bytes) :
    (conn.advance count unread bytes).unread = unread := rfl

@[simp]
theorem advance_written (conn : Conn) (count : Nat) (unread bytes : Bytes) :
    (conn.advance count unread bytes).written = conn.written ++ bytes := rfl

theorem advance_advance (conn : Conn) (first second : Nat) (unread unread' bytes bytes' : Bytes) :
    (conn.advance first unread bytes).advance second unread' bytes' =
      conn.advance (first + second) unread' (bytes ++ bytes') := by
  rcases conn with ⟨before, written, cut⟩
  cases cut with
  | none => simp only [advance, List.append_assoc, Option.map_none]
  | some cut => simp only [advance, List.append_assoc, Option.map_some, Nat.sub_sub]

theorem advance_of_uncut {conn : Conn} (uncut : conn.cut = none) (count : Nat)
    (unread bytes : Bytes) :
    conn.advance count unread bytes = ⟨unread, conn.written ++ bytes, none⟩ := by
  rw [advance, uncut]
  rfl

/-- Two stretches of awaits fit exactly when the second fits after the first. -/
theorem admits_add (conn : Conn) (first second : Nat) (unread bytes : Bytes) :
    conn.Admits (first + second) ↔
      conn.Admits first ∧ (conn.advance first unread bytes).Admits second := by
  rcases conn with ⟨before, written, cut⟩
  cases cut with
  | none => simp [Admits, advance]
  | some cut =>
      simp only [Admits, advance, Option.some.injEq, forall_eq', Option.map_some]
      omega

end Conn

/-- Moving no byte does not suspend. -/
def awaitsFor (count : Nat) : Nat := if count = 0 then 0 else 1

variable {ε δ : Type}

/-- Read exactly `count` bytes. -/
def readExact (raise : Fault → ε) (count : Nat) : EStateM ε Conn (Block count) :=
  fun conn =>
    match conn.cutWithin (awaitsFor count) with
    | some cut =>
        .error (raise cut.fault) ⟨conn.unread.drop (min cut.progress count), conn.written, conn.cut⟩
    | none =>
        if enough : count ≤ conn.unread.length then
          .ok ⟨conn.unread.take count, List.length_take_of_le enough⟩
            (conn.advance (awaitsFor count) (conn.unread.drop count) [])
        else
          .error (raise .eof) (conn.advance (awaitsFor count) [] [])

/-- Write all of `bytes`. -/
def writeAll (raise : Fault → ε) (bytes : Bytes) : EStateM ε Conn Unit :=
  fun conn =>
    match conn.cutWithin (awaitsFor bytes.length) with
    | some cut =>
        .error (raise cut.fault) ⟨conn.unread, conn.written ++ bytes.take cut.progress, conn.cut⟩
    | none => .ok () (conn.advance (awaitsFor bytes.length) conn.unread bytes)

/-- A read succeeds exactly when the cut leaves room and the stream starts with
enough bytes; it takes these and leaves the rest. -/
theorem readExact_eq_ok {raise : Fault → ε} {count : Nat} {conn next : Conn}
    {front : Block count} :
    readExact raise count conn = .ok front next ↔
      conn.Admits (awaitsFor count) ∧ ∃ rest, conn.unread = front.1 ++ rest ∧
        next = conn.advance (awaitsFor count) rest [] := by
  rw [← conn.cutWithin_eq_none_iff]
  constructor
  · intro done
    unfold readExact at done
    split at done
    · cases done
    · next uncut =>
      split at done
      · cases done
        exact ⟨uncut, conn.unread.drop count, (List.take_append_drop count conn.unread).symm, rfl⟩
      · cases done
  · rintro ⟨uncut, rest, split, rfl⟩
    have long : count ≤ conn.unread.length := by
      rw [split, List.length_append, front.2]
      exact Nat.le_add_right _ _
    have taken : conn.unread.take count = front.1 := by
      rw [split, List.take_left' front.2]
    have left : conn.unread.drop count = rest := by
      rw [split, List.drop_left' front.2]
    simp only [readExact, uncut, dif_pos long, taken, left]

/-- A byte that counts the bytes behind it, and these bytes. -/
theorem readCounted_eq_ok {α : Type} {raise : Fault → ε}
    (make : (count : UInt8) → Block count.toNat → α) {conn next : Conn} {a : α} :
    (readExact raise 1 >>= fun count => readExact raise (count.get 0).toNat >>= fun block =>
        pure (make (count.get 0) block) : EStateM ε Conn α) conn = .ok a next ↔
      ∃ (count : UInt8) (block : Block count.toNat) (rest : Bytes),
        conn.unread = count :: (block.1 ++ rest) ∧ conn.Admits (1 + awaitsFor count.toNat) ∧
          a = make count block ∧ next = conn.advance (1 + awaitsFor count.toNat) rest [] := by
  constructor
  · intro done
    obtain ⟨count, middle, readCount, others⟩ := bind_eq_ok.mp done
    obtain ⟨block, middle', readBlock, last⟩ := bind_eq_ok.mp others
    obtain ⟨room, tail, starts, rfl⟩ := readExact_eq_ok.mp readCount
    obtain ⟨room', rest, starts', rfl⟩ := readExact_eq_ok.mp readBlock
    obtain ⟨rfl, rfl⟩ := pure_eq_ok.mp last
    rw [Conn.advance_unread] at starts'
    refine ⟨count.get 0, block, rest, ?_, ?_, rfl, ?_⟩
    · rw [starts, starts', block_one count]
      rfl
    · exact (conn.admits_add 1 _ tail []).mpr ⟨room, room'⟩
    · rw [Conn.advance_advance]
      rfl
  · rintro ⟨count, block, rest, starts, room, rfl, rfl⟩
    obtain ⟨room, room'⟩ := (conn.admits_add 1 _ (block.1 ++ rest) []).mp room
    refine bind_eq_ok.mpr ⟨⟨[count], rfl⟩, _, readExact_eq_ok.mpr ⟨room, _, starts, rfl⟩, ?_⟩
    refine bind_eq_ok.mpr ⟨block, _, readExact_eq_ok.mpr ⟨room', rest, rfl, rfl⟩, ?_⟩
    refine pure_eq_ok.mpr ⟨rfl, ?_⟩
    rw [Conn.advance_advance]
    rfl

/-- Reading from an uncut stream that starts with the bytes read. -/
theorem readExact_front (raise : Fault → ε) {count : Nat} {conn : Conn}
    (uncut : conn.cut = none) (front : Block count) {rest : Bytes}
    (starts : conn.unread = front.1 ++ rest) :
    readExact raise count conn = .ok front (conn.advance (awaitsFor count) rest []) :=
  readExact_eq_ok.mpr ⟨Conn.admits_of_uncut uncut _, rest, starts, rfl⟩

theorem readExact_uncut (raise : Fault → ε) {count : Nat} (front : Block count)
    (rest written : Bytes) :
    readExact raise count ⟨front.1 ++ rest, written, none⟩ = .ok front ⟨rest, written, none⟩ := by
  rw [readExact_front raise rfl front rfl, Conn.advance_of_uncut rfl, List.append_nil]

theorem readExact_ofBytes (raise : Fault → ε) {count : Nat} (front : Block count) (rest : Bytes) :
    readExact raise count (.ofBytes (front.1 ++ rest)) = .ok front (.ofBytes rest) :=
  readExact_uncut raise front rest []

/-- Reading more than an uncut stream has. -/
theorem readExact_short (raise : Fault → ε) {count : Nat} {unread : Bytes} (written : Bytes)
    (short : unread.length < count) :
    readExact raise count ⟨unread, written, none⟩ =
      .error (raise .eof) (Conn.advance ⟨unread, written, none⟩ (awaitsFor count) [] []) := by
  have uncut : (Conn.mk unread written none).cutWithin (awaitsFor count) = none := rfl
  simp only [readExact, uncut, dif_neg (Nat.not_le_of_gt short)]

/-- A read fails with a fault of its own. -/
theorem readExact_eq_error {raise : Fault → ε} {count : Nat} {conn next : Conn} {e : ε}
    (failed : readExact raise count conn = .error e next) : ∃ fault, e = raise fault := by
  unfold readExact at failed
  split at failed
  · cases failed
    exact ⟨_, rfl⟩
  · split at failed <;> cases failed
    exact ⟨_, rfl⟩

/-- A read that fails writes nothing. -/
theorem readExact_error_written {raise : Fault → ε} {count : Nat} {conn next : Conn} {e : ε}
    (failed : readExact raise count conn = .error e next) : next.written = conn.written := by
  unfold readExact at failed
  split at failed
  · cases failed
    rfl
  · split at failed
    · cases failed
    · cases failed
      rw [Conn.advance_written, List.append_nil]

/-- A write that fails has written a part at the front. -/
theorem writeAll_error_written {raise : Fault → ε} {bytes : Bytes} {conn next : Conn} {e : ε}
    (failed : writeAll raise bytes conn = .error e next) :
    next.written <+: conn.written ++ bytes := by
  unfold writeAll at failed
  split at failed
  · next cut _ =>
    cases failed
    exact (List.prefix_append_right_inj conn.written).mpr (List.take_prefix cut.progress bytes)
  · cases failed

/-- A program that writes nothing, whatever its outcome. -/
def Silent {α : Type} (program : EStateM ε Conn α) : Prop :=
  ∀ conn, (after program conn).written = conn.written

namespace Silent

variable {α β : Type}

theorem readExact (raise : Fault → ε) (count : Nat) : Silent (readExact raise count) := by
  intro conn
  cases outcome : Library.readExact raise count conn with
  | ok front next =>
      obtain ⟨-, rest, -, rfl⟩ := readExact_eq_ok.mp outcome
      rw [after_of_ok outcome, Conn.advance_written, List.append_nil]
  | error e next => rw [after_of_error outcome, readExact_error_written outcome]

theorem pure (a : α) : Silent (Pure.pure a : EStateM ε Conn α) := fun _ => rfl

theorem throw (e : ε) : Silent (MonadExcept.throw e : EStateM ε Conn α) := fun _ => rfl

theorem bind {first : EStateM ε Conn α} {next : α → EStateM ε Conn β} (silent : Silent first)
    (rest : ∀ a, Silent (next a)) : Silent (first >>= next) := by
  intro conn
  have begun := silent conn
  cases outcome : first conn with
  | ok a middle =>
      rw [after_of_ok outcome] at begun
      rw [after_bind_of_ok outcome, rest a middle, begun]
  | error e middle =>
      rw [after_of_error outcome] at begun
      rw [after_of_error (bind_of_error outcome), begun]

theorem map (f : α → β) {program : EStateM ε Conn α} (silent : Silent program) :
    Silent (f <$> program) := by
  rw [map_eq_pure_bind]
  exact silent.bind fun a => .pure (f a)

theorem ite (condition : Prop) [Decidable condition] {yes no : EStateM ε Conn α}
    (one : Silent yes) (two : Silent no) : Silent (if condition then yes else no) := by
  split
  · exact one
  · exact two

end Silent

theorem writeAll_eq_ok {raise : Fault → ε} {bytes : Bytes} {conn next : Conn} :
    writeAll raise bytes conn = .ok () next ↔
      conn.Admits (awaitsFor bytes.length) ∧
        next = conn.advance (awaitsFor bytes.length) conn.unread bytes := by
  rw [← conn.cutWithin_eq_none_iff]
  constructor
  · intro done
    unfold writeAll at done
    split at done
    · cases done
    · next uncut =>
      cases done
      exact ⟨uncut, rfl⟩
  · rintro ⟨uncut, rfl⟩
    simp only [writeAll, uncut]

/-- Writes to an uncut connection go through. -/
theorem writeAll_uncut (raise : Fault → ε) (bytes : Bytes) (conn : Conn)
    (uncut : conn.cut = none) :
    writeAll raise bytes conn =
      .ok () (conn.advance (awaitsFor bytes.length) conn.unread bytes) :=
  writeAll_eq_ok.mpr ⟨Conn.admits_of_uncut uncut _, rfl⟩

theorem Agree.readExact (raise : Fault → ε) (raise' : Fault → δ) (count : Nat) :
    Agree (readExact raise count) (Library.readExact raise' count) := by
  intro conn
  unfold Library.readExact
  split
  · exact .error _ _ _
  · split
    · exact .ok _ _
    · exact .error _ _ _

theorem Agree.writeAll (raise : Fault → ε) (raise' : Fault → δ) (bytes : Bytes) :
    Agree (writeAll raise bytes) (Library.writeAll raise' bytes) := by
  intro conn
  unfold Library.writeAll
  split
  · exact .error _ _ _
  · exact .ok _ _

end TailcatSocks.Library
