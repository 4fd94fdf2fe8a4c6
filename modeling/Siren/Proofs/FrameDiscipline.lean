import Siren.Proofs.ScopeGrowth

/-!
# Frames and calls over whole sessions

Every block that is opened is closed and every call that is started is left, on
every path.  So between the operations of a session its scope has one frame and
no call is active, whatever the operations were and however they ended.
-/

namespace Siren
namespace Session

/-- What can be asked of a session. -/
inductive Operation where
  | run (program : Program)
  | exec (stmt : Stmt)
  | reset
  | lookup (name : Text)

/-- The session after an operation, whether it succeeded or failed. -/
def after (session : Session) : Operation → Session
  | .run program => (session.run program).2
  | .exec stmt => (session.exec stmt).2
  | .reset => session.reset
  | .lookup _ => session

/-- No block is open beyond the top level, and no call is active. -/
structure AtTopLevel (session : Session) : Prop where
  oneFrame : session.machine.scope.depth = 1
  noCalls : session.machine.depth = 0

/-- A session starts at the top level. -/
theorem atTopLevel_start (limit : DepthLimit) : AtTopLevel (start limit) :=
  ⟨rfl, rfl⟩

/-- Steps of evaluation that only declare and assign stay at the top level. -/
theorem AtTopLevel.of_grows
    {targets declared : List Text}
    {session : Session}
    {machine : Machine}
    (top : AtTopLevel session)
    (grows : session.machine.Grows targets declared machine) :
    AtTopLevel ⟨machine, session.limit⟩ where
  oneFrame := by
    have names := congrArg List.length grows.scope.names_eq
    simp only [Scope.names, List.length_map, List.length_modifyHead] at names
    exact names.trans top.oneFrame
  noCalls := grows.depth.trans top.noCalls

/-- Every operation leads from the top level to the top level. -/
theorem AtTopLevel.after
    {session : Session}
    (top : AtTopLevel session)
    (operation : Operation) :
    AtTopLevel (session.after operation) := by
  have returns := session.limit.caller_returns session.machine.depth
  cases operation with
  | run program =>
      obtain ⟨declared, grows⟩ := Block.grows_exec returns .quiet program
        (List.Subset.refl _) session.machine
      exact top.of_grows grows
  | exec stmt =>
      exact top.of_grows
        (Stmt.grows_exec returns stmt (List.Subset.refl _) session.machine)
  | reset => exact ⟨rfl, rfl⟩
  | lookup name => exact top

/-- A session is at the top level after any operations. -/
theorem AtTopLevel.foldl_after
    {session : Session}
    (top : AtTopLevel session)
    (operations : List Operation) :
    AtTopLevel (operations.foldl Session.after session) := by
  induction operations generalizing session with
  | nil => exact top
  | cons operation operations inductionHypothesis =>
      exact inductionHypothesis (top.after operation)

/-- Expressions keep the frames, the names declared in them and the number of
active calls; statements do too, except that a declaration which neither fails
nor meets a `return` adds its name to the innermost frame.  A declaration ends
in that way exactly if its expression has a value and the innermost frame does
not declare the name yet.  So after any operations of a session there is one
frame and no active call. -/
theorem frames_and_calls_are_balanced (limit : DepthLimit) :
    (∀ (expr : Expr) (machine : Machine),
      let after := (expr.eval (limit.caller machine.depth) machine).2
      after.scope.names = machine.scope.names ∧ after.depth = machine.depth) ∧
    (∀ (stmt : Stmt) (machine : Machine),
      let (result, after) := stmt.exec (limit.caller machine.depth) machine
      after.scope.names = machine.scope.names.modifyHead (· ++ stmt.declared result) ∧
        after.depth = machine.depth) ∧
    (∀ (pos : Position) (name : Text) (value : Expr) (machine : Machine),
      let call := limit.caller machine.depth
      let result := ((Stmt.declare pos name value).exec call machine).1
      (∃ outcome, result = .ok outcome ∧ outcome.isReturning = false) ↔
        (∃ given, (value.eval call machine).1 = .ok (.value given)) ∧
          ∃ frame ∈ machine.scope.names.head?, name ∉ frame) ∧
    (∀ operations : List Operation,
      let session := operations.foldl Session.after (start limit)
      session.machine.scope.depth = 1 ∧ session.machine.depth = 0) := by
  refine ⟨?_, ?_, ?_, ?_⟩
  · intro expr machine
    have keeps := Expr.keeps_eval (limit.caller_returns machine.depth) expr
      (List.Subset.refl _)
    exact ⟨keeps.names_eq machine, (keeps machine).depth⟩
  · intro stmt machine
    have grows := Stmt.grows_exec (limit.caller_returns machine.depth) stmt
      (List.Subset.refl _) machine
    exact ⟨grows.scope.names_eq, grows.depth⟩
  · intro pos name value machine
    exact Stmt.declare_succeeds_iff (limit.caller_returns machine.depth) pos name value machine
  · intro operations
    have top := (atTopLevel_start limit).foldl_after operations
    exact ⟨top.oneFrame, top.noCalls⟩

end Session
end Siren
