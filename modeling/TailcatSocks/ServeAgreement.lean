import TailcatSocks.Go.Serve

/-!
# The accept loops of the three front ends

`serve` of the Rust front end and `serve_forever` of the Python one beside
`Serve` of the Go one, on the same results of `accept`.
-/

namespace TailcatSocks

variable {Client : Type}

/-- The connections handled and the error returned: each `accept()` has its `?`. -/
def Rust.serve : List (Go.Accept Client) → List Client × Option Go.AcceptError
  | [] => ([], none)
  | .ok conn :: later =>
      let (handled, returned) := Rust.serve later
      (conn :: handled, returned)
  | .error e :: _ => ([], some e)

/-- The connections handled, and whether the loop has returned. -/
def Python.serveForever : List (Go.Accept Client) → List Client × Bool
  | [] => ([], false)
  | .ok conn :: later =>
      let (handled, returned) := Python.serveForever later
      (conn :: handled, returned)
  | .error _ :: _ => ([], true)

def Go.Iteration.handled : Go.Iteration Client → Option Client
  | .handle conn => some conn
  | .sleep _ => none

def Go.handled (accepts : List (Go.Accept Client)) : List Client :=
  (Go.serve 0 accepts).1.filterMap Go.Iteration.handled

def accepted : Go.Accept Client → Option Client
  | .ok conn => some conn
  | .error _ => none

def isConn (result : Go.Accept Client) : Bool := !Go.isError result

theorem goesOn_of_isConn {result : Go.Accept Client} (conn : isConn result = true) :
    Go.goesOn result = true := by
  cases result with
  | ok conn => rfl
  | error e => cases conn

theorem handled_from (tempDelay : Nat) (accepts : List (Go.Accept Client)) :
    (Go.serve tempDelay accepts).1.filterMap Go.Iteration.handled =
      (accepts.takeWhile Go.goesOn).filterMap accepted := by
  induction accepts generalizing tempDelay with
  | nil => rfl
  | cons result later ih =>
      cases result with
      | ok conn =>
          rw [Go.serve, List.takeWhile_cons_of_pos rfl]
          exact congrArg (conn :: ·) (ih 0)
      | error e =>
          by_cases closed : e = .closed
          · rw [closed]
            rfl
          · cases lasts : e.transient with
            | true =>
                have on : Go.goesOn (.error e : Go.Accept Client) = true := lasts
                rw [Go.serve, if_neg closed, if_pos lasts, List.takeWhile_cons_of_pos on]
                exact ih (Go.nextDelay tempDelay)
            | false =>
                have stops : ¬ Go.goesOn (.error e : Go.Accept Client) = true := by
                  rw [Go.goesOn, lasts]
                  exact Bool.false_ne_true
                rw [Go.serve, if_neg closed, lasts, if_neg Bool.false_ne_true,
                  List.takeWhile_cons_of_neg stops]
                rfl

theorem rust_serve_eq (accepts : List (Go.Accept Client)) :
    (Rust.serve accepts).1 = (accepts.takeWhile isConn).filterMap accepted := by
  induction accepts with
  | nil => rfl
  | cons result later ih =>
      cases result with
      | ok conn => exact congrArg (conn :: ·) ih
      | error e => rfl

theorem python_serveForever_eq (accepts : List (Go.Accept Client)) :
    Python.serveForever accepts = ((Rust.serve accepts).1, (Rust.serve accepts).2.isSome) := by
  induction accepts with
  | nil => rfl
  | cons result later ih =>
      cases result with
      | ok conn => rw [Python.serveForever, ih, Rust.serve]
      | error e => rfl

/-- A loop that ends at the first error of all handles what comes before it. -/
theorem takeWhile_isConn (accepts : List (Go.Accept Client)) :
    (accepts.takeWhile Go.goesOn).takeWhile isConn = accepts.takeWhile isConn := by
  induction accepts with
  | nil => rfl
  | cons result later ih =>
      cases conn : isConn result with
      | true =>
          rw [List.takeWhile_cons_of_pos (goesOn_of_isConn conn), List.takeWhile_cons_of_pos conn,
            List.takeWhile_cons_of_pos conn, ih]
      | false =>
          have ends : ¬ isConn result = true := by
            rw [conn]
            exact Bool.false_ne_true
          rw [List.takeWhile_cons_of_neg ends, List.takeWhile_cons]
          split
          · rw [List.takeWhile_cons_of_neg ends]
          · rfl

/-- What the Go loop handles beyond the others. -/
theorem handled_eq (accepts : List (Go.Accept Client)) :
    Go.handled accepts = (Rust.serve accepts).1 ++
      ((accepts.takeWhile Go.goesOn).dropWhile isConn).filterMap accepted := by
  rw [Go.handled, handled_from, rust_serve_eq, ← takeWhile_isConn, ← List.filterMap_append,
    List.takeWhile_append_dropWhile]

/-- The Python loop handles the connections that the Rust one does.  The Go one
handles them first, and nothing more exactly when no connection comes after a
transient error and before the end of its loop. -/
theorem accept_loops_agree_iff (accepts : List (Go.Accept Client)) :
    (Python.serveForever accepts).1 = (Rust.serve accepts).1 ∧
      (Rust.serve accepts).1 <+: Go.handled accepts ∧
      (Go.handled accepts = (Rust.serve accepts).1 ↔
        ∀ conn, .ok conn ∉ (accepts.takeWhile Go.goesOn).dropWhile isConn) := by
  refine ⟨by rw [python_serveForever_eq], ⟨_, (handled_eq accepts).symm⟩, ?_⟩
  rw [handled_eq, List.append_right_eq_self, List.filterMap_eq_nil_iff]
  constructor
  · intro none conn member
    cases none (.ok conn) member
  · intro none result member
    cases result with
    | ok conn => exact absurd member (none conn)
    | error e => rfl

/-- One aborted connection between two others. -/
example : Go.handled [.ok 1, .error .connAborted, .ok 2] = [1, 2] ∧
    (Rust.serve [.ok 1, .error .connAborted, .ok 2]).1 = [1] := ⟨rfl, rfl⟩

end TailcatSocks
