import TailcatSocks.Library.Wire

/-!
# A client's connection and its upstream

What one connection task of a front end sees: the client's connection, and the
upstream with the way in which dialling it goes.  Programs over the two are
written with the operations of a single connection.
-/

namespace TailcatSocks.Socks

open Library

/-- `dialFault` is how dialling fails, if it does; a cut of the upstream
connection is the end of the handshake window. -/
structure World where
  client : Conn
  upstream : Conn
  dialFault : Option Fault
  dialled : Bool
  deriving DecidableEq

/-- A client that sends `stream` and closes, and an upstream not yet dialled. -/
def World.start (stream : Bytes) (dialFault : Option Fault) (upstream : Conn) : World :=
  ⟨.ofBytes stream, upstream, dialFault, false⟩

variable {ε α : Type}

def onClient (program : EStateM ε Conn α) : EStateM ε World α :=
  onPart World.client (fun w client => { w with client }) program

def onUpstream (program : EStateM ε Conn α) : EStateM ε World α :=
  onPart World.upstream (fun w upstream => { w with upstream }) program

/-- Connect to the upstream. -/
def dial (raise : Fault → ε) : EStateM ε World Unit :=
  fun w =>
    match w.dialFault with
    | none => .ok () { w with dialled := true }
    | some fault => .error (raise fault) { w with dialled := true }

theorem dial_of_none (raise : Fault → ε) {w : World} (dials : w.dialFault = none) :
    dial raise w = .ok () ⟨w.client, w.upstream, w.dialFault, true⟩ := by
  rw [dial, dials]

theorem dial_of_fault (raise : Fault → ε) {w : World} {fault : Fault}
    (fails : w.dialFault = some fault) :
    dial raise w = .error (raise fault) ⟨w.client, w.upstream, w.dialFault, true⟩ := by
  rw [dial, fails]

theorem onClient_of_ok {program : EStateM ε Conn α} {a : α} {client client' : Conn}
    (done : program client = .ok a client') (upstream : Conn) (dialFault : Option Fault)
    (dialled : Bool) :
    onClient program ⟨client, upstream, dialFault, dialled⟩ =
      .ok a ⟨client', upstream, dialFault, dialled⟩ := onPart_of_ok done

theorem onClient_of_error {program : EStateM ε Conn α} {e : ε} {client client' : Conn}
    (failed : program client = .error e client') (upstream : Conn) (dialFault : Option Fault)
    (dialled : Bool) :
    onClient program ⟨client, upstream, dialFault, dialled⟩ =
      .error e ⟨client', upstream, dialFault, dialled⟩ := onPart_of_error failed

/-- The state after a reply has been written to the client. -/
theorem reply_written (raise : Fault → ε) (rest written reply : Bytes) (upstream : Conn)
    (dialFault : Option Fault) (dialled : Bool) :
    onClient (writeAll raise reply) ⟨⟨rest, written, none⟩, upstream, dialFault, dialled⟩ =
      .ok () ⟨⟨rest, written ++ reply, none⟩, upstream, dialFault, dialled⟩ := by
  have wrote := writeAll_uncut raise reply ⟨rest, written, none⟩ rfl
  rw [Conn.advance_of_uncut rfl] at wrote
  exact onPart_of_ok wrote

/-- Whether the connection went on to the relay. -/
inductive Served where
  | closed
  | relay
  deriving DecidableEq, Repr

end TailcatSocks.Socks
