import Siren.Evaluation

/-!
# Sessions

A session evaluates statements one after the other against bindings that stay,
under a limit on the number of active calls.
-/

namespace Siren

/-- A machine at the top level and its limit. -/
structure Session where
  machine : Machine
  limit : DepthLimit

namespace Session

/-- A session without bindings. -/
def start (limit : DepthLimit) : Session :=
  ⟨⟨.fresh, 0, []⟩, limit⟩

/-- Runs a computation on the machine of a session. -/
def perform {α : Type} (session : Session) (action : Caller → Eval α) :
    Except Fault α × Session :=
  let (result, machine) :=
    action (session.limit.caller session.machine.depth) session.machine
  (result, { session with machine })

/-- Executes one statement. -/
def exec (session : Session) (stmt : Stmt) : Except Fault Outcome × Session :=
  session.perform stmt.exec

/-- Executes a program.  The result is that of a `return` at the top level,
which ends it, or else the value of the last expression, or the unit. -/
def run (session : Session) (program : Program) : Except Fault Value × Session :=
  let (outcome, session) := session.perform fun call => Block.exec call .quiet program
  (outcome.map Outcome.result, session)

/-- Executes statements one by one up to the first that fails, and lists what
each gave.  A `return` ends only its own statement. -/
def execEach (session : Session) : List Stmt → List (Except Fault Outcome) × Session
  | [] => ([], session)
  | stmt :: stmts =>
    match session.exec stmt with
    | (.ok outcome, session) =>
      let (outcomes, session) := session.execEach stmts
      (.ok outcome :: outcomes, session)
    | (.error fault, session) => ([.error fault], session)

/-- Discards every binding. -/
def reset (session : Session) : Session :=
  { session with machine := { session.machine with scope := .fresh, depth := 0 } }

/-- The bindings in the order of their declaration. -/
def bindings (session : Session) : List Binding :=
  session.machine.scope.bindings

/-- The value of a binding. -/
def lookup (session : Session) (name : Text) : Except RuntimeError Value :=
  session.machine.scope.lookup name

/-- The steps of calls since the trace was last taken, in order, and the
session with an empty trace. -/
def takeTrace (session : Session) : List Event × Session :=
  (session.machine.trace.reverse,
    { session with machine := { session.machine with trace := [] } })

end Session
end Siren
