import Mathlib.Algebra.Group.Nat.Defs
import Mathlib.Data.List.Infix
import Mathlib.Data.List.TakeDrop

/-!
# The accept loop of the Go front end

`(*Server).Serve` on the results of `Accept`, in their order.  What it does at
an error depends on how many errors have come in a row, and on nothing else.
-/

namespace TailcatSocks.Go

variable {Client : Type}

/-- What `Serve` tells apart of the errors of `Accept`. -/
inductive AcceptError where
  /-- `net.ErrClosed` -/
  | closed
  | connAborted
  | tooManyFiles
  | tooManyFilesInSystem
  | other
  deriving DecidableEq, Repr

def AcceptError.transient : AcceptError → Bool
  | .connAborted | .tooManyFiles | .tooManyFilesInSystem => true
  | _ => false

abbrev Accept (Client : Type) : Type := Except AcceptError Client

/-- What an iteration does when it does not return. -/
inductive Iteration (Client : Type) where
  /-- `go s.handle(conn)` -/
  | handle (conn : Client)
  /-- `time.Sleep`, in milliseconds. -/
  | sleep (millis : Nat)
  deriving DecidableEq, Repr

/-- The `tempDelay` after another transient error. -/
def nextDelay (tempDelay : Nat) : Nat :=
  let doubled := if tempDelay = 0 then 5 else tempDelay * 2
  if doubled > 1000 then 1000 else doubled

/-- What the iterations do, and the error that `Serve` returns; it has not
returned when the results run out. -/
def serve (tempDelay : Nat) : List (Accept Client) → List (Iteration Client) × Option AcceptError
  | [] => ([], none)
  | .ok conn :: later =>
      let (iterations, returned) := serve 0 later
      (.handle conn :: iterations, returned)
  | .error e :: later =>
      if e = .closed then ([], some e)
      else if e.transient then
        let (iterations, returned) := serve (nextDelay tempDelay) later
        (.sleep (nextDelay tempDelay) :: iterations, returned)
      else ([], some e)

/-! ## What it depends on -/

/-- `Serve` goes on after this result. -/
def goesOn : Accept Client → Bool
  | .ok _ => true
  | .error e => e.transient

def isError : Accept Client → Bool
  | .ok _ => false
  | .error _ => true

/-- The errors in a row at the end. -/
def streak (past : List (Accept Client)) : Nat := (past.reverse.takeWhile isError).length

/-- The sleep after so many errors in a row. -/
def backoff (errors : Nat) : Nat := min (5 * 2 ^ (errors - 1)) 1000

/-- What `Serve` does at the last of the results so far. -/
def doneAt (past : List (Accept Client)) : Option (Iteration Client) :=
  past.getLast?.map fun
    | .ok conn => .handle conn
    | .error _ => .sleep (backoff (streak past))

/-- The delay that a streak leaves behind. -/
def delayAfter (errors : Nat) : Nat := if errors = 0 then 0 else backoff errors

theorem nextDelay_delayAfter (errors : Nat) :
    nextDelay (delayAfter errors) = backoff (errors + 1) := by
  cases errors with
  | zero => rfl
  | succ errors =>
      have positive : 0 < 2 ^ errors := Nat.two_pow_pos errors
      have held : min (5 * 2 ^ errors) 1000 ≠ 0 := by omega
      simp only [nextDelay, delayAfter, backoff, Nat.add_sub_cancel, Nat.pow_succ,
        if_neg (Nat.succ_ne_zero errors), if_neg held]
      split <;> omega

theorem streak_concat_ok (past : List (Accept Client)) (conn : Client) :
    streak (past ++ [.ok conn]) = 0 := by
  simp [streak, isError]

theorem streak_concat_error (past : List (Accept Client)) (e : AcceptError) :
    streak (past ++ [.error e]) = streak past + 1 := by
  rw [streak, List.reverse_append, List.reverse_singleton, List.singleton_append,
    List.takeWhile_cons_of_pos rfl, List.length_cons, streak]

theorem inits_tail_cons {α : Type} (a : α) (as : List α) :
    (a :: as).inits.tail = [a] :: as.inits.tail.map (a :: ·) := by
  cases as with
  | nil => rfl
  | cons b bs => simp

/-- The results at which `Serve` goes on, each with all before it. -/
theorem filterMap_doneAt_cons (past : List (Accept Client)) (result : Accept Client)
    (live : List (Accept Client)) :
    (result :: live).inits.tail.filterMap (fun front => doneAt (past ++ front)) =
      (doneAt (past ++ [result])).toList ++
        live.inits.tail.filterMap fun front => doneAt (past ++ [result] ++ front) := by
  rw [inits_tail_cons, List.filterMap_cons, List.filterMap_map]
  cases doneAt (past ++ [result]) <;> simp

theorem doneAt_concat_ok (past : List (Accept Client)) (conn : Client) :
    doneAt (past ++ [.ok conn]) = some (.handle conn) := by
  simp [doneAt]

theorem doneAt_concat_error (past : List (Accept Client)) (e : AcceptError) :
    doneAt (past ++ [.error e]) = some (.sleep (nextDelay (delayAfter (streak past)))) := by
  simp [doneAt, streak_concat_error, nextDelay_delayAfter]

/-- The error that ends `Serve`, if one has come. -/
def fatal (accepts : List (Accept Client)) : Option AcceptError :=
  match accepts.dropWhile goesOn with
  | .error e :: _ => some e
  | _ => none

theorem serve_from (past accepts : List (Accept Client)) :
    serve (delayAfter (streak past)) accepts =
      ((accepts.takeWhile goesOn).inits.tail.filterMap fun front => doneAt (past ++ front),
        fatal accepts) := by
  induction accepts generalizing past with
  | nil => rfl
  | cons result later ih =>
      have rest := ih (past ++ [result])
      cases result with
      | ok conn =>
          have started : delayAfter (streak (past ++ [.ok conn])) = 0 := by
            rw [streak_concat_ok]
            rfl
          rw [started] at rest
          rw [List.takeWhile_cons_of_pos rfl, filterMap_doneAt_cons, doneAt_concat_ok, serve, rest,
            fatal, fatal, List.dropWhile_cons_of_pos rfl]
          rfl
      | error e =>
          cases lasts : e.transient with
          | true =>
              have notClosed : e ≠ .closed := fun closed => by
                rw [closed] at lasts
                cases lasts
              have on : goesOn (.error e : Accept Client) = true := lasts
              have grown : delayAfter (streak (past ++ [.error e])) =
                  nextDelay (delayAfter (streak past)) := by
                rw [streak_concat_error, nextDelay_delayAfter]
                rfl
              rw [grown] at rest
              rw [List.takeWhile_cons_of_pos on, filterMap_doneAt_cons, doneAt_concat_error,
                serve, if_neg notClosed, if_pos lasts, rest, fatal, fatal,
                List.dropWhile_cons_of_pos on]
              rfl
          | false =>
              have stops : ¬ goesOn (.error e : Accept Client) = true := by
                rw [goesOn, lasts]
                exact Bool.false_ne_true
              rw [List.takeWhile_cons_of_neg stops, serve, fatal,
                List.dropWhile_cons_of_neg stops]
              simp [lasts]

/-- `Serve` handles every connection that comes before the first error that is
not transient, sleeps five milliseconds at the first of a row of transient
errors and twice as long at each next one up to a second, and returns that
first error and no other. -/
theorem serve_eq (accepts : List (Accept Client)) :
    serve 0 accepts = ((accepts.takeWhile goesOn).inits.tail.filterMap doneAt, fatal accepts) :=
  serve_from [] accepts

end TailcatSocks.Go
