import Siren.Proofs.ScopeGrowth

/-!
# Returning early

Evaluation hands the result of a `return` outwards as part of the results of all
constructs around it.  Here `return` is an exception instead: it is thrown where
it stands, blocks are closed on its way, and only calls and the top level catch
it.  The two ways of evaluation give the same results and the same machines.

So once a `return` has been met in an operand, an argument, a condition, the
value of a statement or an arm, nothing that stands after it in the same call is
evaluated.
-/

namespace Siren

/-! ## Return as an exception -/

/-- Why evaluation stops before its end: something failed, or a `return` was
met. -/
inductive Exit where
  | fault (fault : Fault)
  | returned (result : Value)

/-- A computation that may be left by an exception; an exception keeps the
changes made before it. -/
abbrev Raising := ExceptT Exit (StateM Machine)

namespace Raising

variable {α β : Type}

/-- A computation that throws its faults. -/
def ofEval (action : Eval α) : Raising α := fun machine =>
  match action machine with
  | (.ok value, after) => (.ok value, after)
  | (.error fault, after) => (.error (.fault fault), after)

/-- Runs statements in a block of their own, which is closed on every path. -/
def inBlock (body : Raising (Option Value)) : Raising Value := do
  modify fun machine => { machine with scope := machine.scope.push }
  let last ← tryFinally body (modify fun machine => { machine with scope := machine.scope.pop })
  return last.getD .unit

/-- Catches a `return`. -/
def signalled (action : Raising α) : Eval (Flow α) := fun machine =>
  match action machine with
  | (.ok value, after) => (.ok (.value value), after)
  | (.error (.returned result), after) => (.ok (.returning result), after)
  | (.error (.fault fault), after) => (.error fault, after)

end Raising

/-- The outcome of statements whose last value is known. -/
def Outcome.ofLast : Option Value → Outcome
  | none => .quiet
  | some given => .value given

/-- The outcome of statements that may have met a `return`. -/
def Outcome.ofFlow : Flow (Option Value) → Outcome
  | .value last => .ofLast last
  | .returning result => .returning result

/-- Runs the statements of a call or of the top level, and catches a `return`. -/
def Raising.caught (body : Raising (Option Value)) : Eval Outcome :=
  Outcome.ofFlow <$> body.signalled

mutual

/-- Evaluates an expression. -/
def Expr.evalRaising (call : Caller) : Expr → Raising Value
  | .name _ name => .ofEval (Eval.lookup name)
  | .int _ value => return .int value
  | .bool _ value => return .bool value
  | .function _ params body => return .fn ⟨params, body⟩
  | .unary _ op operand => do
    let value ← operand.evalRaising call
    .ofEval (.ofExcept (op.apply value))
  | .binary left op right => do
    let left ← left.evalRaising call
    let right ← right.evalRaising call
    .ofEval (.ofExcept (op.apply left right))
  | .branch _ condition thenArm elseArm => do
    let test ← condition.evalRaising call
    if ← .ofEval (.ofExcept (test.asBool.mapError .runtime)) then
      .inBlock (Block.execRaising call none thenArm)
    else
      Block.execElseRaising call elseArm
  | .call callee args => do
    let args ← Expr.evalAllRaising call args
    match callee with
    | .name _ name =>
      match ← .ofEval (Eval.lookup name) with
      | .fn function => .ofEval (call function args name)
      | other =>
        throw (.fault (.runtime (.notCallable (name ++ " (" ++ other.kindName ++ ")"))))
    | .function _ params body => .ofEval (call ⟨params, body⟩ args [])
    | other => throw (.fault (.runtime (.notCallable other.text)))
  | .missing => throw (.fault .missingExpression)
termination_by structural expr => expr

/-- Evaluates the arguments of a call from left to right. -/
def Expr.evalAllRaising (call : Caller) : List Expr → Raising (List Value)
  | [] => return []
  | expr :: exprs => do
    let value ← expr.evalRaising call
    let values ← Expr.evalAllRaising call exprs
    return value :: values
termination_by structural exprs => exprs

/-- Executes a statement, which may give a value.  A `return` throws its
result. -/
def Stmt.execRaising (call : Caller) : Stmt → Raising (Option Value)
  | .declare _ name value => do
    .ofEval (Eval.bind name (← value.evalRaising call))
    return none
  | .assign _ name value => do
    .ofEval (Eval.assign name (← value.evalRaising call))
    return none
  | .expr value => do
    return some (← value.evalRaising call)
  | .result _ value => do
    throw (.returned (← value.evalRaising call))
  | .missing => throw (.fault .missingStatement)
termination_by structural stmt => stmt

/-- Executes statements in order and gives the last value, or the one so far. -/
def Block.execRaising (call : Caller) (last : Option Value) : List Stmt → Raising (Option Value)
  | [] => return last
  | stmt :: stmts => do
    let given ← stmt.execRaising call
    Block.execRaising call (given.or last) stmts
termination_by structural stmts => stmts

/-- Executes the second arm of a choice; an absent one gives the unit. -/
def Block.execElseRaising (call : Caller) : Option (List Stmt) → Raising Value
  | none => return .unit
  | some block => .inBlock (Block.execRaising call none block)
termination_by structural arm => arm

end

/-- Calls a function when `room` more calls may be nested, and catches a
`return` in its body. -/
def Function.callRaising (refusal : Fault) : Nat → Caller
  | 0, function, args, _ =>
    if args.length = function.arity then
      throw refusal
    else
      throw (.runtime (.arityMismatch function.arity args.length))
  | room + 1, function, args, self =>
    if args.length = function.arity then
      function.activate args self
        (Block.execRaising (callRaising refusal room) none function.body).caught
    else
      throw (.runtime (.arityMismatch function.arity args.length))

/-- Executes a program, and catches a `return` at the top level. -/
def Session.runRaising (session : Session) (program : Program) :
    Except Fault Value × Session :=
  let call := Function.callRaising session.limit.refusal
    (session.limit.room session.machine.depth)
  let (outcome, machine) := (Block.execRaising call none program).caught session.machine
  (outcome.map Outcome.result, { session with machine })

/-! ## Catching -/

namespace Raising

variable {α β : Type}

theorem bind_apply (first : Raising α) (next : α → Raising β) (machine : Machine) :
    (first >>= next) machine =
      match first machine with
      | (.ok value, after) => next value after
      | (.error exit, after) => (.error exit, after) := by
  rw [exceptT_bind_apply]
  rcases first machine with ⟨exit | value, after⟩ <;> rfl

theorem signalled_pure (value : α) :
    (pure value : Raising α).signalled = pure (.value value) := rfl

theorem signalled_fault (fault : Fault) :
    (throw (.fault fault) : Raising α).signalled = throw fault := rfl

/-- A sequence goes on after its first part unless that throws. -/
theorem signalled_bind (first : Raising α) (next : α → Raising β) :
    (first >>= next).signalled = first.signalled.onValue fun value => (next value).signalled := by
  funext machine
  rw [Eval.onValue, Eval.bind_apply]
  unfold signalled
  rw [bind_apply]
  rcases first machine with ⟨(_ | _) | value, after⟩ <;> rfl

theorem signalled_ofEval (action : Eval α) :
    (ofEval action).signalled = (do return .value (← action)) := by
  funext machine
  rw [Eval.bind_apply]
  unfold signalled ofEval
  rcases action machine with ⟨fault | value, after⟩ <;> rfl

theorem caught_apply (body : Raising (Option Value)) (machine : Machine) :
    body.caught machine =
      match body.signalled machine with
      | (.ok flow, after) => (.ok (.ofFlow flow), after)
      | (.error fault, after) => (.error fault, after) := by
  unfold caught
  rw [map_eq_pure_bind, Eval.bind_apply]
  rcases body.signalled machine with ⟨fault | flow, after⟩ <;> rfl

theorem modify_apply (change : Machine → Machine) (machine : Machine) :
    (modify change : Raising PUnit) machine = (.ok ⟨⟩, change machine) := rfl

/-- A computation that only fails is a first part like any other. -/
theorem signalled_ofEval_bind (action : Eval α) (next : α → Raising β) :
    (ofEval action >>= next).signalled = action >>= fun value => (next value).signalled := by
  funext machine
  rw [signalled_bind, signalled_ofEval, Eval.onValue, Eval.bind_apply, Eval.bind_apply,
    Eval.bind_apply]
  rcases action machine with ⟨fault | value, after⟩ <;> rfl

/-- What is done at last is done on every path. -/
theorem tryFinally_apply
    (body : Raising α)
    (change : Machine → Machine)
    (machine : Machine) :
    (tryFinally body (modify change : Raising PUnit)) machine =
      ((body machine).1, change (body machine).2) := by
  rcases equal : body machine with ⟨exit | value, after⟩
  · simp only [tryFinally, tryFinally', Functor.map, ExceptT.map, ExceptT.mk, Bind.bind,
      StateT.bind, Pure.pure, equal]
    rfl
  · simp only [tryFinally, tryFinally', Functor.map, ExceptT.map, ExceptT.mk, Bind.bind,
      StateT.bind, Pure.pure, equal]
    rfl

/-- A block is closed whether its statements end, fail or throw. -/
theorem signalled_inBlock (body : Raising (Option Value)) :
    (inBlock body).signalled = Eval.inBlock body.caught := by
  funext machine
  unfold Eval.inBlock
  rw [caught_apply]
  unfold signalled inBlock
  rw [bind_apply, modify_apply]
  dsimp only
  rw [bind_apply, tryFinally_apply]
  rcases body { machine with scope := machine.scope.push } with ⟨(_ | _) | (_ | _), after⟩ <;> rfl

theorem caught_pure (last : Option Value) :
    (pure last : Raising (Option Value)).caught = pure (.ofLast last) := rfl

theorem caught_fault (fault : Fault) :
    (throw (.fault fault) : Raising (Option Value)).caught = throw fault := rfl

theorem caught_returned (result : Value) :
    (throw (.returned result) : Raising (Option Value)).caught = pure (.returning result) := rfl

theorem caught_bind (first : Raising α) (next : α → Raising (Option Value)) :
    (first >>= next).caught = (do
      match ← first.signalled with
      | .value value => (next value).caught
      | .returning result => return .returning result) := by
  funext machine
  rw [caught_apply, signalled_bind, Eval.onValue, Eval.bind_apply, Eval.bind_apply]
  rcases first.signalled machine with ⟨fault | (value | result), after⟩
  · rfl
  · exact (caught_apply _ _).symm
  · rfl

theorem caught_ofEval (action : Eval Unit) :
    (do ofEval action; return none : Raising (Option Value)).caught =
      (do action; return .quiet) := by
  funext machine
  rw [caught_bind, signalled_ofEval, Eval.bind_apply, Eval.bind_apply, Eval.bind_apply]
  rcases action machine with ⟨fault | value, after⟩ <;> rfl

end Raising

/-! ## The two evaluations -/

section Syntax

variable (call : Caller)

mutual

theorem Expr.eval_eq_signalled (expr : Expr) :
    expr.eval call = (expr.evalRaising call).signalled := by
  cases expr with
  | name _ name =>
      rw [Expr.eval, Expr.evalRaising, Raising.signalled_ofEval]
  | int _ value => rw [Expr.eval, Expr.evalRaising, Raising.signalled_pure]
  | bool _ value => rw [Expr.eval, Expr.evalRaising, Raising.signalled_pure]
  | function _ params body => rw [Expr.eval, Expr.evalRaising, Raising.signalled_pure]
  | unary _ op operand =>
      rw [Expr.eval, Expr.evalRaising, Raising.signalled_bind, Expr.eval_eq_signalled operand]
      congr 1
      funext value
      rw [Raising.signalled_ofEval]
  | binary left op right =>
      rw [Expr.eval, Expr.evalRaising, Raising.signalled_bind, Expr.eval_eq_signalled left]
      congr 1
      funext leftValue
      rw [Raising.signalled_bind, Expr.eval_eq_signalled right]
      congr 1
      funext rightValue
      rw [Raising.signalled_ofEval]
  | branch _ condition thenArm elseArm =>
      rw [Expr.eval, Expr.evalRaising, Raising.signalled_bind, Expr.eval_eq_signalled condition]
      congr 1
      funext test
      rw [Raising.signalled_ofEval_bind]
      congr 1
      funext holds
      cases holds with
      | true =>
          rw [if_pos rfl, if_pos rfl, Raising.signalled_inBlock,
            ← Block.exec_eq_caught none thenArm, Outcome.ofLast]
      | false =>
          rw [if_neg Bool.false_ne_true, if_neg Bool.false_ne_true,
            Block.execElse_eq_signalled elseArm]
  | call callee args =>
      rw [Expr.eval, Expr.evalRaising, Raising.signalled_bind, Expr.evalAll_eq_signalled args]
      congr 1
      funext values
      cases callee with
      | name _ name =>
          rw [Raising.signalled_ofEval_bind]
          dsimp only
          congr 1
          funext value
          cases value with
          | fn function => rw [Raising.signalled_ofEval]
          | unit | int | bool | foreign => rw [Raising.signalled_fault]
      | function _ params body => rw [Raising.signalled_ofEval]
      | int | bool | unary | binary | call | branch | missing =>
          rw [Raising.signalled_fault]
  | missing => rw [Expr.eval, Expr.evalRaising, Raising.signalled_fault]
termination_by structural expr

theorem Expr.evalAll_eq_signalled (exprs : List Expr) :
    Expr.evalAll call exprs = (Expr.evalAllRaising call exprs).signalled := by
  cases exprs with
  | nil => rw [Expr.evalAll, Expr.evalAllRaising, Raising.signalled_pure]
  | cons expr exprs =>
      rw [Expr.evalAll, Expr.evalAllRaising, Raising.signalled_bind,
        Expr.eval_eq_signalled expr, Expr.evalAll_eq_signalled exprs]
      congr 1
      funext value
      rw [Raising.signalled_bind]
      congr 1
termination_by structural exprs

theorem Stmt.exec_eq_caught (stmt : Stmt) :
    stmt.exec call = (stmt.execRaising call).caught := by
  cases stmt with
  | declare _ name value =>
      rw [Stmt.exec, Stmt.execRaising, Raising.caught_bind, Expr.eval_eq_signalled value]
      congr 1
      funext flow
      cases flow with
      | value given => exact (Raising.caught_ofEval _).symm
      | returning result => rfl
  | assign _ name value =>
      rw [Stmt.exec, Stmt.execRaising, Raising.caught_bind, Expr.eval_eq_signalled value]
      congr 1
      funext flow
      cases flow with
      | value given => exact (Raising.caught_ofEval _).symm
      | returning result => rfl
  | expr value =>
      rw [Stmt.exec, Stmt.execRaising, Raising.caught_bind, Expr.eval_eq_signalled value]
      congr 1
      funext flow
      cases flow with
      | value given => rfl
      | returning result => rfl
  | result _ value =>
      rw [Stmt.exec, Stmt.execRaising, Raising.caught_bind, Expr.eval_eq_signalled value]
      congr 1
      funext flow
      cases flow with
      | value given => exact (Raising.caught_returned given).symm
      | returning result => rfl
  | missing => rw [Stmt.exec, Stmt.execRaising, Raising.caught_fault]
termination_by structural stmt

theorem Block.exec_eq_caught (last : Option Value) (stmts : List Stmt) :
    Block.exec call (.ofLast last) stmts = (Block.execRaising call last stmts).caught := by
  cases stmts with
  | nil => rw [Block.exec, Block.execRaising, Raising.caught_pure]
  | cons stmt stmts =>
      rw [Block.exec, Block.execRaising, Raising.caught_bind, Stmt.exec_eq_caught stmt]
      funext machine
      rw [Eval.bind_apply, Eval.bind_apply, Raising.caught_apply]
      rcases (stmt.execRaising call).signalled machine with
        ⟨fault | ((_ | given) | result), after⟩
      · rfl
      · exact congrFun (Block.exec_eq_caught last stmts) after
      · exact congrFun (Block.exec_eq_caught (some given) stmts) after
      · rfl
termination_by structural stmts

theorem Block.execElse_eq_signalled (arm : Option (List Stmt)) :
    Block.execElse call arm = (Block.execElseRaising call arm).signalled := by
  cases arm with
  | none => rw [Block.execElse, Block.execElseRaising, Raising.signalled_pure]
  | some block =>
      rw [Block.execElse, Block.execElseRaising, Raising.signalled_inBlock,
        ← Block.exec_eq_caught none block, Outcome.ofLast]
termination_by structural arm

end

end Syntax

/-! ## Calls and sessions -/

theorem Block.exec_quiet_eq_caught (call : Caller) (stmts : List Stmt) :
    Block.exec call .quiet stmts = (Block.execRaising call none stmts).caught :=
  Block.exec_eq_caught call none stmts

theorem Function.call_eq_callRaising (refusal : Fault) (room : Nat) :
    Function.call refusal room = Function.callRaising refusal room := by
  induction room with
  | zero => rfl
  | succ room inductionHypothesis =>
      funext function args self
      rw [call, callRaising, inductionHypothesis, Block.exec_quiet_eq_caught]

theorem Session.run_eq_runRaising (session : Session) (program : Program) :
    session.run program = session.runRaising program := by
  unfold run runRaising perform DepthLimit.caller
  rw [Function.call_eq_callRaising]
  dsimp only
  rw [Block.exec_quiet_eq_caught]
  rfl

/-! ## What stands after a return -/

/-- Statements that end without a `return` lead on to those after them. -/
theorem Block.exec_append
    {call : Caller}
    {last outcome : Outcome}
    {before : List Stmt}
    {start between : Machine}
    (ends : Block.exec call last before start = (.ok outcome, between))
    (goesOn : outcome.isReturning = false)
    (after : List Stmt) :
    Block.exec call last (before ++ after) start = Block.exec call outcome after between := by
  induction before generalizing last start with
  | nil =>
      rw [Block.exec] at ends
      cases ends
      rfl
  | cons stmt stmts inductionHypothesis =>
      rw [Block.exec] at ends
      rw [List.cons_append, Block.exec]
      rcases run : stmt.exec call start with ⟨fault | (_ | given | result), next⟩
      · rw [Eval.bind_of_error run] at ends
        cases ends
      · rw [Eval.bind_of_ok run] at ends ⊢
        exact inductionHypothesis ends
      · rw [Eval.bind_of_ok run] at ends ⊢
        exact inductionHypothesis ends
      · rw [Eval.bind_of_ok run] at ends
        cases ends
        cases goesOn

/-- A `return` in an argument ends the arguments. -/
theorem Expr.evalAll_append_returning
    {call : Caller}
    {before : List Expr}
    {values : List Value}
    {arg : Expr}
    {result : Value}
    {start inside after : Machine}
    (ends : Expr.evalAll call before start = (.ok (.value values), inside))
    (returns : arg.eval call inside = (.ok (.returning result), after))
    (args : List Expr) :
    Expr.evalAll call (before ++ arg :: args) start = (.ok (.returning result), after) := by
  induction before generalizing values start with
  | nil =>
      rw [Expr.evalAll] at ends
      cases ends
      rw [List.nil_append, Expr.evalAll]
      exact Eval.onValue_of_returning returns _
  | cons expr exprs inductionHypothesis =>
      rw [Expr.evalAll] at ends
      rw [List.cons_append, Expr.evalAll]
      rcases run : expr.eval call start with ⟨fault | (value | result), next⟩
      · rw [Eval.onValue_of_error run] at ends
        cases ends
      · rw [Eval.onValue_of_value run] at ends ⊢
        rcases rest : Expr.evalAll call exprs next with ⟨fault | (more | result), last⟩
        · rw [Eval.onValue_of_error rest] at ends
          cases ends
        · rw [Eval.onValue_of_value rest] at ends
          cases ends
          exact Eval.onValue_of_returning (inductionHypothesis rest) _
        · rw [Eval.onValue_of_returning rest] at ends
          cases ends
      · rw [Eval.onValue_of_returning run] at ends
        cases ends

/-- A statement around the expression for its value. -/
inductive StmtHole where
  | declare (pos : Position) (name : Text)
  | assign (pos : Position) (name : Text)
  | expr
  | result (pos : Position)

/-- The statement with a value. -/
def StmtHole.fill (value : Expr) : StmtHole → Stmt
  | .declare pos name => .declare pos name value
  | .assign pos name => .assign pos name value
  | .expr => .expr value
  | .result pos => .result pos value

/-- Statements with a hole for the value of one of them. -/
structure BlockHole where
  before : List Stmt
  hole : StmtHole
  after : List Stmt

namespace BlockHole

/-- The statements with a value. -/
def fill (value : Expr) (block : BlockHole) : List Stmt :=
  block.before ++ block.hole.fill value :: block.after

/-- The statements before the hole lead from one machine to another. -/
def Reaches (call : Caller) (block : BlockHole) (start inside : Machine) : Prop :=
  ∃ outcome, Block.exec call .quiet block.before start = (.ok outcome, inside) ∧
    outcome.isReturning = false

/-- A `return` in the value of a statement ends the statements. -/
theorem exec_fill
    {call : Caller}
    {block : BlockHole}
    {value : Expr}
    {result : Value}
    {start inside after : Machine}
    (reaches : block.Reaches call start inside)
    (returns : value.eval call inside = (.ok (.returning result), after)) :
    Block.exec call .quiet (block.fill value) start = (.ok (.returning result), after) := by
  obtain ⟨outcome, ends, goesOn⟩ := reaches
  have stmt : (block.hole.fill value).exec call inside = (.ok (.returning result), after) := by
    cases block.hole <;> exact Eval.bind_of_ok returns _
  rw [fill, Block.exec_append ends goesOn, Block.exec]
  exact Eval.bind_of_ok stmt _

end BlockHole

/-- An expression with a hole for one of its parts. -/
inductive ExprHole where
  | operand (pos : Position) (op : UnaryOp)
  | left (op : BinaryOp) (second : Expr)
  | right (first : Expr) (op : BinaryOp)
  | argument (callee : Expr) (before after : List Expr)
  | condition (pos : Position) (thenArm : List Stmt) (elseArm : Option (List Stmt))
  | inThen (pos : Position) (test : Expr) (block : BlockHole) (elseArm : Option (List Stmt))
  | inElse (pos : Position) (test : Expr) (thenArm : List Stmt) (block : BlockHole)

namespace ExprHole

/-- The expression with a part. -/
def fill (part : Expr) : ExprHole → Expr
  | .operand pos op => .unary pos op part
  | .left op second => .binary part op second
  | .right first op => .binary first op part
  | .argument callee before after => .call callee (before ++ part :: after)
  | .condition pos thenArm elseArm => .branch pos part thenArm elseArm
  | .inThen pos test block elseArm => .branch pos test (block.fill part) elseArm
  | .inElse pos test thenArm block => .branch pos test thenArm (some (block.fill part))

/-- What is evaluated before the hole leads from one machine to another. -/
def Reaches (call : Caller) (start inside : Machine) : ExprHole → Prop
  | .operand _ _ => inside = start
  | .left _ _ => inside = start
  | .right first _ => ∃ value, first.eval call start = (.ok (.value value), inside)
  | .argument _ before _ =>
    ∃ values, Expr.evalAll call before start = (.ok (.value values), inside)
  | .condition _ _ _ => inside = start
  | .inThen _ test block _ =>
    ∃ between, test.eval call start = (.ok (.value (.bool true)), between) ∧
      block.Reaches call { between with scope := between.scope.push } inside
  | .inElse _ test _ block =>
    ∃ between, test.eval call start = (.ok (.value (.bool false)), between) ∧
      block.Reaches call { between with scope := between.scope.push } inside

/-- The machine when a `return` leaves the expression: the block of an arm is
closed. -/
def leave (machine : Machine) : ExprHole → Machine
  | .inThen _ _ _ _ => { machine with scope := machine.scope.pop }
  | .inElse _ _ _ _ => { machine with scope := machine.scope.pop }
  | _ => machine

/-- A `return` in a part of an expression ends the expression. -/
theorem eval_fill
    {call : Caller}
    {hole : ExprHole}
    {part : Expr}
    {result : Value}
    {start inside after : Machine}
    (reaches : hole.Reaches call start inside)
    (returns : part.eval call inside = (.ok (.returning result), after)) :
    (hole.fill part).eval call start = (.ok (.returning result), hole.leave after) := by
  cases hole with
  | operand pos op =>
      obtain rfl : inside = start := reaches
      rw [fill, Expr.eval]
      exact Eval.onValue_of_returning returns _
  | left op second =>
      obtain rfl : inside = start := reaches
      rw [fill, Expr.eval]
      exact Eval.onValue_of_returning returns _
  | right first op =>
      obtain ⟨value, ends⟩ := reaches
      rw [fill, Expr.eval, Eval.onValue_of_value ends]
      exact Eval.onValue_of_returning returns _
  | argument callee before args =>
      obtain ⟨values, ends⟩ := reaches
      rw [fill, Expr.eval]
      exact Eval.onValue_of_returning (Expr.evalAll_append_returning ends returns args) _
  | condition pos thenArm elseArm =>
      obtain rfl : inside = start := reaches
      rw [fill, Expr.eval]
      exact Eval.onValue_of_returning returns _
  | inThen pos test block elseArm =>
      obtain ⟨between, ends, arm⟩ := reaches
      rw [fill, Expr.eval, Eval.onValue_of_value ends]
      change Eval.inBlock (Block.exec call .quiet (block.fill part)) between = _
      rw [Eval.inBlock, BlockHole.exec_fill arm returns]
      rfl
  | inElse pos test thenArm block =>
      obtain ⟨between, ends, arm⟩ := reaches
      rw [fill, Expr.eval, Eval.onValue_of_value ends]
      change Block.execElse call (some (block.fill part)) between = _
      rw [Block.execElse, Eval.inBlock, BlockHole.exec_fill arm returns]
      rfl

/-- Holes inside one another, the outermost first: what is evaluated before the
innermost leads from one machine to another. -/
inductive ReachesAll (call : Caller) : Machine → List ExprHole → Machine → Prop where
  | here (machine : Machine) : ReachesAll call machine [] machine
  | inside {start between inside : Machine} {hole : ExprHole} {holes : List ExprHole}
      (outer : hole.Reaches call start between)
      (inner : ReachesAll call between holes inside) :
      ReachesAll call start (hole :: holes) inside

/-- A `return` deep in an expression ends the expression. -/
theorem eval_foldr_fill
    {call : Caller}
    {holes : List ExprHole}
    {part : Expr}
    {result : Value}
    {start inside after : Machine}
    (reaches : ReachesAll call start holes inside)
    (returns : part.eval call inside = (.ok (.returning result), after)) :
    (holes.foldr (fun hole expr => hole.fill expr) part).eval call start =
      (.ok (.returning result), holes.foldr (fun hole machine => hole.leave machine) after) := by
  induction reaches with
  | here machine => exact returns
  | inside outer inner inductionHypothesis => exact eval_fill outer (inductionHypothesis returns)

end ExprHole

/-- A `return` carried outwards in the results is a `return` thrown as an
exception that only calls and the top level catch: expressions, statements,
blocks, calls and runs of programs give the same and leave the same machine.  So
a `return` anywhere inside the value of a statement ends the statements of its
call with its result, whatever stands after it in the expressions, blocks and
statements around it. -/
theorem return_is_an_exception :
    (∀ (call : Caller) (expr : Expr),
      expr.eval call = (expr.evalRaising call).signalled) ∧
    (∀ (call : Caller) (stmt : Stmt),
      stmt.exec call = (stmt.execRaising call).caught) ∧
    (∀ (call : Caller) (stmts : List Stmt),
      Block.exec call .quiet stmts = (Block.execRaising call none stmts).caught ∧
        Eval.inBlock (Block.exec call .quiet stmts) =
          (Raising.inBlock (Block.execRaising call none stmts)).signalled) ∧
    (∀ (refusal : Fault) (room : Nat),
      Function.call refusal room = Function.callRaising refusal room) ∧
    (∀ (session : Session) (program : Program),
      session.run program = session.runRaising program) ∧
    ∀ (call : Caller) (block : BlockHole) (holes : List ExprHole) (part : Expr)
      (result : Value) (start top inside after : Machine),
      block.Reaches call start top → ExprHole.ReachesAll call top holes inside →
      part.eval call inside = (.ok (.returning result), after) →
      Block.exec call .quiet (block.fill (holes.foldr (fun hole expr => hole.fill expr) part))
          start =
        (.ok (.returning result), holes.foldr (fun hole machine => hole.leave machine) after) := by
  refine ⟨Expr.eval_eq_signalled, Stmt.exec_eq_caught, ?_, Function.call_eq_callRaising,
    Session.run_eq_runRaising, ?_⟩
  · intro call stmts
    rw [Raising.signalled_inBlock, ← Block.exec_quiet_eq_caught]
    exact ⟨rfl, rfl⟩
  · intro call block holes part result start top inside after outer inner returns
    exact BlockHole.exec_fill outer (ExprHole.eval_foldr_fill inner returns)

/-- A `return` in an operand of the value of a declaration ends the statements before
the other operand and the statement after it, neither of which has a meaning. -/
theorem return_is_an_exception_before_missing :
    let call : Caller := (DepthLimit.atMost 1).caller 0
    let start : Machine := ⟨.fresh, 0, []⟩
    let inside : Machine := ⟨⟨[[("x", .int 1)]]⟩, 0, []⟩
    let part : Expr :=
      .branch .start (.bool .start true) [.result .start (.name .start "x")] none
    part.eval call inside = (.ok (.returning (.int 1)), inside) ∧
      Block.exec call .quiet
          [.declare .start "x" (.int .start 1),
            .declare .start "y" (.binary (.unary .start .negate part) .add .missing),
            .missing] start =
        (.ok (.returning (.int 1)), inside) := by
  intro call start inside part
  have returns : part.eval call inside = (.ok (.returning (.int 1)), inside) := rfl
  have reaches : ExprHole.ReachesAll call inside
      [.left .add .missing, .operand .start .negate] inside :=
    .inside rfl (.inside rfl (.here inside))
  refine ⟨returns, ?_⟩
  exact return_is_an_exception.2.2.2.2.2 call
    ⟨[.declare .start "x" (.int .start 1)], .declare .start "y", [.missing]⟩
    [.left .add .missing, .operand .start .negate] part (.int 1) start inside inside inside
    ⟨.quiet, rfl, rfl⟩ reaches returns

end Siren
