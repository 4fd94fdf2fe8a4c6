import Siren.Proofs.EarlyReturn

/-!
# Derivations of evaluation

Evaluation by rules: a task ends with a result on a machine when a finite
derivation says so.  The rules follow the constructs of the language, and a call
is refused when the number of active calls has reached the limit.  Nothing else
bounds a derivation, so without a limit a task may have none.

Under a limit every task has a derivation: by induction on the number of calls
that may still be nested, and for each number by induction on the syntax.  It
gives what the evaluation functions compute, so there is only one.
-/

namespace Siren

/-! ## Rules -/

/-- Something to evaluate: an expression, the arguments of a call, a statement,
statements after the outcome so far, a block, or a call. -/
inductive Task where
  | expr (expr : Expr)
  | args (exprs : List Expr)
  | stmt (stmt : Stmt)
  | seq (last : Outcome) (stmts : List Stmt)
  | block (stmts : List Stmt)
  | call (function : Function) (args : List Value) (self : Text)

/-- What a task gives unless it fails. -/
@[reducible] def Task.Answer : Task → Type
  | .expr _ => Flow Value
  | .args _ => Flow (List Value)
  | .stmt _ => Outcome
  | .seq _ _ => Outcome
  | .block _ => Flow Value
  | .call _ _ _ => Value

namespace Exit

variable {α : Type}

/-- A fault or a `return` as the result of an expression. -/
def flow : Exit → Except Fault (Flow α)
  | .fault cause => .error cause
  | .returned result => .ok (.returning result)

/-- A fault or a `return` as the result of a statement. -/
def outcome : Exit → Except Fault Outcome
  | .fault cause => .error cause
  | .returned result => .ok (.returning result)

end Exit

/-- Whether so many calls may be active. -/
def DepthLimit.admits : DepthLimit → Nat → Bool
  | .atMost calls, active => active ≤ calls
  | .unlimited, _ => true

/-- The function that a call calls and the name it is called by: a name must be
bound to a function, and a function that is written out has no name. -/
def Expr.callee (scope : Scope) : Expr → Except Fault (Function × Text)
  | .name _ self =>
    match scope.lookup self with
    | .ok (.fn found) => .ok (found, self)
    | .ok other => .error (.runtime (.notCallable (self ++ " (" ++ other.kindName ++ ")")))
    | .error error => .error (.runtime error)
  | .function _ params body => .ok (⟨params, body⟩, [])
  | other => .error (.runtime (.notCallable other.text))

/-- The rules of evaluation: a task that starts on a machine ends with a result
on another machine.  A call beyond the limit fails with `refusal`. -/
inductive Ends (limit : DepthLimit) (refusal : Fault) :
    (task : Task) → Machine → Except Fault task.Answer → Machine → Prop where
  -- Expressions
  | name {machine : Machine} {pos : Position} {name : Text} :
      Ends limit refusal (.expr (.name pos name)) machine
        (((machine.scope.lookup name).mapError .runtime).map .value) machine
  | int {machine : Machine} {pos : Position} {value : Int64} :
      Ends limit refusal (.expr (.int pos value)) machine (.ok (.value (.int value))) machine
  | bool {machine : Machine} {pos : Position} {value : Bool} :
      Ends limit refusal (.expr (.bool pos value)) machine (.ok (.value (.bool value))) machine
  | function {machine : Machine} {pos : Position} {params : List Text} {body : List Stmt} :
      Ends limit refusal (.expr (.function pos params body)) machine
        (.ok (.value (.fn ⟨params, body⟩))) machine
  | missingExpr {machine : Machine} :
      Ends limit refusal (.expr .missing) machine (.error .missingExpression) machine
  | operandExits {start after : Machine} {pos : Position} {op : UnaryOp} {operand : Expr}
      (exit : Exit)
      (inner : Ends limit refusal (.expr operand) start exit.flow after) :
      Ends limit refusal (.expr (.unary pos op operand)) start exit.flow after
  | unary {start after : Machine} {pos : Position} {op : UnaryOp} {operand : Expr}
      {value : Value}
      (inner : Ends limit refusal (.expr operand) start (.ok (.value value)) after) :
      Ends limit refusal (.expr (.unary pos op operand)) start ((op.apply value).map .value) after
  | leftExits {start after : Machine} {op : BinaryOp} {left right : Expr} (exit : Exit)
      (first : Ends limit refusal (.expr left) start exit.flow after) :
      Ends limit refusal (.expr (.binary left op right)) start exit.flow after
  | rightExits {start between after : Machine} {op : BinaryOp} {left right : Expr}
      {leftValue : Value} (exit : Exit)
      (first : Ends limit refusal (.expr left) start (.ok (.value leftValue)) between)
      (second : Ends limit refusal (.expr right) between exit.flow after) :
      Ends limit refusal (.expr (.binary left op right)) start exit.flow after
  | binary {start between after : Machine} {op : BinaryOp} {left right : Expr}
      {leftValue rightValue : Value}
      (first : Ends limit refusal (.expr left) start (.ok (.value leftValue)) between)
      (second : Ends limit refusal (.expr right) between (.ok (.value rightValue)) after) :
      Ends limit refusal (.expr (.binary left op right)) start
        ((op.apply leftValue rightValue).map .value) after
  | conditionExits {start after : Machine} {pos : Position} {condition : Expr}
      {thenArm : List Stmt} {elseArm : Option (List Stmt)} (exit : Exit)
      (test : Ends limit refusal (.expr condition) start exit.flow after) :
      Ends limit refusal (.expr (.branch pos condition thenArm elseArm)) start exit.flow after
  | conditionFails {start after : Machine} {pos : Position} {condition : Expr}
      {thenArm : List Stmt} {elseArm : Option (List Stmt)} {value : Value}
      {error : RuntimeError}
      (test : Ends limit refusal (.expr condition) start (.ok (.value value)) after)
      (mismatch : value.asBool = .error error) :
      Ends limit refusal (.expr (.branch pos condition thenArm elseArm)) start
        (.error (.runtime error)) after
  | thenArm {start between after : Machine} {pos : Position} {condition : Expr}
      {thenArm : List Stmt} {elseArm : Option (List Stmt)} {value : Value}
      {result : Except Fault (Flow Value)}
      (test : Ends limit refusal (.expr condition) start (.ok (.value value)) between)
      (holds : value.asBool = .ok true)
      (arm : Ends limit refusal (.block thenArm) between result after) :
      Ends limit refusal (.expr (.branch pos condition thenArm elseArm)) start result after
  | elseArm {start between after : Machine} {pos : Position} {condition : Expr}
      {thenArm block : List Stmt} {value : Value}
      {result : Except Fault (Flow Value)}
      (test : Ends limit refusal (.expr condition) start (.ok (.value value)) between)
      (fails : value.asBool = .ok false)
      (arm : Ends limit refusal (.block block) between result after) :
      Ends limit refusal (.expr (.branch pos condition thenArm (some block))) start result after
  | noElse {start after : Machine} {pos : Position} {condition : Expr}
      {thenArm : List Stmt} {value : Value}
      (test : Ends limit refusal (.expr condition) start (.ok (.value value)) after)
      (fails : value.asBool = .ok false) :
      Ends limit refusal (.expr (.branch pos condition thenArm none)) start
        (.ok (.value .unit)) after
  | argsExit {start after : Machine} {callee : Expr} {args : List Expr} (exit : Exit)
      (first : Ends limit refusal (.args args) start exit.flow after) :
      Ends limit refusal (.expr (.call callee args)) start exit.flow after
  | calleeFails {start after : Machine} {callee : Expr} {args : List Expr}
      {values : List Value} {fault : Fault}
      (first : Ends limit refusal (.args args) start (.ok (.value values)) after)
      (unresolved : callee.callee after.scope = .error fault) :
      Ends limit refusal (.expr (.call callee args)) start (.error fault) after
  | callee {start between after : Machine} {callee : Expr} {args : List Expr}
      {values : List Value} {function : Function} {self : Text}
      {result : Except Fault Value}
      (first : Ends limit refusal (.args args) start (.ok (.value values)) between)
      (resolved : callee.callee between.scope = .ok (function, self))
      (second : Ends limit refusal (.call function values self) between result after) :
      Ends limit refusal (.expr (.call callee args)) start (result.map .value) after
  -- Arguments
  | noArgs {machine : Machine} :
      Ends limit refusal (.args []) machine (.ok (.value [])) machine
  | argExits {start after : Machine} {expr : Expr} {exprs : List Expr} (exit : Exit)
      (first : Ends limit refusal (.expr expr) start exit.flow after) :
      Ends limit refusal (.args (expr :: exprs)) start exit.flow after
  | moreArgsExit {start between after : Machine} {expr : Expr} {exprs : List Expr}
      {value : Value} (exit : Exit)
      (first : Ends limit refusal (.expr expr) start (.ok (.value value)) between)
      (more : Ends limit refusal (.args exprs) between exit.flow after) :
      Ends limit refusal (.args (expr :: exprs)) start exit.flow after
  | args {start between after : Machine} {expr : Expr} {exprs : List Expr}
      {value : Value} {values : List Value}
      (first : Ends limit refusal (.expr expr) start (.ok (.value value)) between)
      (more : Ends limit refusal (.args exprs) between (.ok (.value values)) after) :
      Ends limit refusal (.args (expr :: exprs)) start (.ok (.value (value :: values))) after
  -- Statements
  | stmtExits {start after : Machine} (hole : StmtHole) {expr : Expr} (exit : Exit)
      (inner : Ends limit refusal (.expr expr) start exit.flow after) :
      Ends limit refusal (.stmt (hole.fill expr)) start exit.outcome after
  | declare {start after : Machine} {pos : Position} {name : Text} {expr : Expr}
      {value : Value} {scope : Scope}
      (inner : Ends limit refusal (.expr expr) start (.ok (.value value)) after)
      (bound : after.scope.bind name value = .ok scope) :
      Ends limit refusal (.stmt (.declare pos name expr)) start (.ok .quiet) { after with scope }
  | declareFails {start after : Machine} {pos : Position} {name : Text} {expr : Expr}
      {value : Value} {fault : Fault}
      (inner : Ends limit refusal (.expr expr) start (.ok (.value value)) after)
      (unbound : after.scope.bind name value = .error fault) :
      Ends limit refusal (.stmt (.declare pos name expr)) start (.error fault) after
  | assign {start after : Machine} {pos : Position} {name : Text} {expr : Expr}
      {value : Value} {scope : Scope}
      (inner : Ends limit refusal (.expr expr) start (.ok (.value value)) after)
      (assigned : after.scope.assign name value = .ok scope) :
      Ends limit refusal (.stmt (.assign pos name expr)) start (.ok .quiet) { after with scope }
  | assignFails {start after : Machine} {pos : Position} {name : Text} {expr : Expr}
      {value : Value} {error : RuntimeError}
      (inner : Ends limit refusal (.expr expr) start (.ok (.value value)) after)
      (unknown : after.scope.assign name value = .error error) :
      Ends limit refusal (.stmt (.assign pos name expr)) start (.error (.runtime error)) after
  | expr {start after : Machine} {expr : Expr} {value : Value}
      (inner : Ends limit refusal (.expr expr) start (.ok (.value value)) after) :
      Ends limit refusal (.stmt (.expr expr)) start (.ok (.value value)) after
  | result {start after : Machine} {pos : Position} {expr : Expr} {value : Value}
      (inner : Ends limit refusal (.expr expr) start (.ok (.value value)) after) :
      Ends limit refusal (.stmt (.result pos expr)) start (.ok (.returning value)) after
  | missingStmt {machine : Machine} :
      Ends limit refusal (.stmt .missing) machine (.error .missingStatement) machine
  -- Statements in a row
  | done {machine : Machine} {last : Outcome} :
      Ends limit refusal (.seq last []) machine (.ok last) machine
  | seqExits {start after : Machine} {last : Outcome} {stmt : Stmt} {stmts : List Stmt}
      (exit : Exit)
      (first : Ends limit refusal (.stmt stmt) start exit.outcome after) :
      Ends limit refusal (.seq last (stmt :: stmts)) start exit.outcome after
  | quiet {start between after : Machine} {last : Outcome} {stmt : Stmt}
      {stmts : List Stmt} {result : Except Fault Outcome}
      (first : Ends limit refusal (.stmt stmt) start (.ok .quiet) between)
      (more : Ends limit refusal (.seq last stmts) between result after) :
      Ends limit refusal (.seq last (stmt :: stmts)) start result after
  | value {start between after : Machine} {last : Outcome} {stmt : Stmt}
      {stmts : List Stmt} {value : Value} {result : Except Fault Outcome}
      (first : Ends limit refusal (.stmt stmt) start (.ok (.value value)) between)
      (more : Ends limit refusal (.seq (.value value) stmts) between result after) :
      Ends limit refusal (.seq last (stmt :: stmts)) start result after
  -- Blocks
  | block {start after : Machine} {stmts : List Stmt} {result : Except Fault Outcome}
      (body : Ends limit refusal (.seq .quiet stmts) { start with scope := start.scope.push }
        result after) :
      Ends limit refusal (.block stmts) start (result.map Outcome.flow)
        { after with scope := after.scope.pop }
  -- Calls
  | arity {machine : Machine} {function : Function} {args : List Value} {self : Text}
      (mismatch : args.length ≠ function.arity) :
      Ends limit refusal (.call function args self) machine
        (.error (.runtime (.arityMismatch function.arity args.length))) machine
  | refused {machine : Machine} {function : Function} {args : List Value} {self : Text}
      (fits : args.length = function.arity)
      (excess : limit.admits (machine.depth + 1) = false) :
      Ends limit refusal (.call function args self) machine (.error refusal) machine
  | scopeFails {machine : Machine} {function : Function} {args : List Value} {self : Text}
      {fault : Fault}
      (fits : args.length = function.arity)
      (room : limit.admits (machine.depth + 1) = true)
      (unbound : function.scope args self = .error fault) :
      Ends limit refusal (.call function args self) machine (.error fault)
        { machine with
          trace := .calling self args.length (machine.depth + 1) :: machine.trace }
  | bodyFails {machine after : Machine} {function : Function} {args : List Value}
      {self : Text} {scope : Scope} {fault : Fault}
      (fits : args.length = function.arity)
      (room : limit.admits (machine.depth + 1) = true)
      (bound : function.scope args self = .ok scope)
      (body : Ends limit refusal (.seq .quiet function.body)
        ⟨scope, machine.depth + 1,
          .calling self args.length (machine.depth + 1) :: machine.trace⟩
        (.error fault) after) :
      Ends limit refusal (.call function args self) machine (.error fault)
        ⟨machine.scope, after.depth - 1, after.trace⟩
  | bodyEnds {machine after : Machine} {function : Function} {args : List Value}
      {self : Text} {scope : Scope} {outcome : Outcome}
      (fits : args.length = function.arity)
      (room : limit.admits (machine.depth + 1) = true)
      (bound : function.scope args self = .ok scope)
      (body : Ends limit refusal (.seq .quiet function.body)
        ⟨scope, machine.depth + 1,
          .calling self args.length (machine.depth + 1) :: machine.trace⟩
        (.ok outcome) after) :
      Ends limit refusal (.call function args self) machine (.ok outcome.result)
        ⟨machine.scope, after.depth - 1, .returned self outcome :: after.trace⟩

namespace Ends

variable {limit : DepthLimit} {refusal : Fault}

/-- As many calls are active at the end of a task as at its start. -/
theorem depth_eq
    {task : Task}
    {start after : Machine}
    {result : Except Fault task.Answer}
    (ends : Ends limit refusal task start result after) :
    after.depth = start.depth := by
  -- Only a call changes the number, and it leaves with one less than its body.
  induction ends <;> simp_all

end Ends

/-! ## What the functions compute -/

/-- Performs a task with a way of calling functions. -/
@[reducible] def Task.perform (call : Caller) : (task : Task) → Eval task.Answer
  | .expr tree => tree.eval call
  | .args trees => Expr.evalAll call trees
  | .stmt tree => tree.exec call
  | .seq last stmts => Block.exec call last stmts
  | .block stmts => Eval.inBlock (Block.exec call .quiet stmts)
  | .call function values self => call function values self

/-- A call checks the number of arguments, then the limit, and then runs the
body, where one call less may be nested. -/
theorem Function.call_apply
    (refusal : Fault)
    (calls : Nat)
    (function : Function)
    (args : List Value)
    (self : Text)
    (machine : Machine) :
    Function.call refusal (calls - machine.depth) function args self machine =
      if args.length ≠ function.arity then
        (.error (.runtime (.arityMismatch function.arity args.length)), machine)
      else if (DepthLimit.atMost calls).admits (machine.depth + 1) then
        function.activate args self
          (Block.exec (Function.call refusal (calls - (machine.depth + 1))) .quiet function.body)
          machine
      else
        (.error refusal, machine) := by
  rw [DepthLimit.admits]
  by_cases fits : args.length = function.arity
  · rw [if_neg (not_not.mpr fits)]
    rcases Nat.lt_or_ge machine.depth calls with below | reached
    · have room : calls - machine.depth = calls - (machine.depth + 1) + 1 := by omega
      rw [room, Function.call, if_pos fits, if_pos (decide_eq_true (by omega))]
    · have room : calls - machine.depth = 0 := by omega
      rw [room, Function.call, if_pos fits, if_neg (by simp; omega)]
      rfl
  · rw [if_pos fits]
    cases calls - machine.depth <;> rw [Function.call, if_neg fits] <;> rfl

namespace Eval

variable {α β : Type}

/-- A part that stops by a fault or a `return` stops the whole. -/
theorem onValue_of_exit
    {first : Eval (Flow α)}
    {machine after : Machine}
    {exit : Exit}
    (run : first machine = (exit.flow, after))
    (next : α → Eval (Flow β)) :
    first.onValue next machine = (exit.flow, after) := by
  cases exit with
  | fault fault => exact onValue_of_error run next
  | returned result => exact onValue_of_returning run next

theorem ofExcept_value (result : Except Fault α) (machine : Machine) :
    (do return Flow.value (← Eval.ofExcept result) : Eval (Flow α)) machine =
      (result.map Flow.value, machine) := by
  rw [bind_apply]
  cases result <;> rfl

end Eval

/-- A statement stops when its expression does. -/
theorem StmtHole.exec_of_exit
    {call : Caller}
    {expr : Expr}
    {start after : Machine}
    {exit : Exit}
    (run : expr.eval call start = (exit.flow, after))
    (hole : StmtHole) :
    (hole.fill expr).exec call start = (exit.outcome, after) := by
  cases exit with
  | fault fault => cases hole <;> exact Eval.bind_of_error run _
  | returned result => cases hole <;> exact Eval.bind_of_ok run _

/-- Statements stop when the first of them does. -/
theorem Block.exec_of_exit
    {call : Caller}
    {stmt : Stmt}
    {start after : Machine}
    {exit : Exit}
    (run : stmt.exec call start = (exit.outcome, after))
    (last : Outcome)
    (stmts : List Stmt) :
    Block.exec call last (stmt :: stmts) start = (exit.outcome, after) := by
  rw [Block.exec]
  cases exit with
  | fault fault => exact Eval.bind_of_error run _
  | returned result => exact Eval.bind_of_ok run _

/-- A call resolves its callee when the arguments have their values. -/
theorem Expr.eval_call
    {call : Caller}
    {callee : Expr}
    {args : List Expr}
    {values : List Value}
    {start after : Machine}
    (run : Expr.evalAll call args start = (.ok (.value values), after)) :
    (Expr.call callee args).eval call start =
      match callee.callee after.scope with
      | .ok target => (do return Flow.value (← call target.1 values target.2)) after
      | .error fault => (.error fault, after) := by
  rw [Expr.eval, Eval.onValue_of_value run]
  cases callee with
  | name _ name =>
      dsimp only
      rw [Eval.bind_apply, Eval.lookup, Expr.callee]
      rcases after.scope.lookup name with error | (_ | _ | _ | _ | _) <;> rfl
  | function _ params body => rfl
  | int | bool | unary | binary | call | branch | missing => rfl

namespace Ends

variable {calls : Nat} {refusal : Fault}

/-- A derivation gives what the functions compute. -/
theorem perform_eq
    {task : Task}
    {start after : Machine}
    {result : Except Fault task.Answer}
    (ends : Ends (.atMost calls) refusal task start result after) :
    task.perform (Function.call refusal (calls - start.depth)) start = (result, after) := by
  induction ends with
  | name =>
      rw [Task.perform, Expr.eval]
      exact Eval.ofExcept_value _ _
  | int | bool | function | missingExpr | noArgs | missingStmt | done =>
      rfl
  | operandExits exit inner innerRuns =>
      rw [Task.perform, Expr.eval]
      exact Eval.onValue_of_exit innerRuns _
  | unary inner innerRuns =>
      rw [Task.perform, Expr.eval, Eval.onValue_of_value innerRuns]
      exact Eval.ofExcept_value _ _
  | leftExits exit first firstRuns =>
      rw [Task.perform, Expr.eval]
      exact Eval.onValue_of_exit firstRuns _
  | rightExits exit first second firstRuns secondRuns =>
      rw [first.depth_eq] at secondRuns
      rw [Task.perform, Expr.eval, Eval.onValue_of_value firstRuns]
      exact Eval.onValue_of_exit secondRuns _
  | binary first second firstRuns secondRuns =>
      rw [first.depth_eq] at secondRuns
      rw [Task.perform, Expr.eval, Eval.onValue_of_value firstRuns,
        Eval.onValue_of_value secondRuns]
      exact Eval.ofExcept_value _ _
  | conditionExits exit test testRuns =>
      rw [Task.perform, Expr.eval]
      exact Eval.onValue_of_exit testRuns _
  | conditionFails test mismatch testRuns =>
      rw [Task.perform, Expr.eval, Eval.onValue_of_value testRuns, mismatch]
      rfl
  | thenArm test holds arm testRuns armRuns =>
      rw [test.depth_eq] at armRuns
      rw [Task.perform, Expr.eval, Eval.onValue_of_value testRuns, holds]
      exact armRuns
  | elseArm test fails arm testRuns armRuns =>
      rw [test.depth_eq] at armRuns
      rw [Task.perform, Expr.eval, Eval.onValue_of_value testRuns, fails]
      exact armRuns
  | noElse test fails testRuns =>
      rw [Task.perform, Expr.eval, Eval.onValue_of_value testRuns, fails]
      rfl
  | argsExit exit first firstRuns =>
      rw [Task.perform, Expr.eval]
      exact Eval.onValue_of_exit firstRuns _
  | calleeFails first unresolved firstRuns =>
      rw [Task.perform, Expr.eval_call firstRuns, unresolved]
  | callee first resolved second firstRuns secondRuns =>
      rw [first.depth_eq] at secondRuns
      rw [Task.perform, Expr.eval_call firstRuns, resolved]
      rw [Task.perform] at secondRuns
      dsimp only
      rw [Eval.bind_apply, secondRuns]
      cases ‹Except Fault Value› <;> rfl
  | argExits exit first firstRuns =>
      rw [Task.perform, Expr.evalAll]
      exact Eval.onValue_of_exit firstRuns _
  | moreArgsExit exit first more firstRuns moreRuns =>
      rw [first.depth_eq] at moreRuns
      rw [Task.perform, Expr.evalAll, Eval.onValue_of_value firstRuns]
      exact Eval.onValue_of_exit moreRuns _
  | args first more firstRuns moreRuns =>
      rw [first.depth_eq] at moreRuns
      rw [Task.perform, Expr.evalAll, Eval.onValue_of_value firstRuns]
      exact Eval.onValue_of_value moreRuns _
  | stmtExits hole exit inner innerRuns =>
      exact StmtHole.exec_of_exit innerRuns hole
  | declare inner bound innerRuns =>
      rw [Task.perform, Stmt.exec, Eval.bind_of_ok innerRuns]
      apply Eval.bind_of_ok
      rw [Eval.bind, bound]
  | declareFails inner unbound innerRuns =>
      rw [Task.perform, Stmt.exec, Eval.bind_of_ok innerRuns]
      apply Eval.bind_of_error
      rw [Eval.bind, unbound]
  | assign inner assigned innerRuns =>
      rw [Task.perform, Stmt.exec, Eval.bind_of_ok innerRuns]
      apply Eval.bind_of_ok
      rw [Eval.assign, assigned]
  | assignFails inner unknown innerRuns =>
      rw [Task.perform, Stmt.exec, Eval.bind_of_ok innerRuns]
      apply Eval.bind_of_error
      rw [Eval.assign, unknown]
  | expr inner innerRuns =>
      rw [Task.perform, Stmt.exec]
      exact Eval.bind_of_ok innerRuns _
  | result inner innerRuns =>
      rw [Task.perform, Stmt.exec]
      exact Eval.bind_of_ok innerRuns _
  | seqExits exit first firstRuns =>
      exact Block.exec_of_exit firstRuns _ _
  | quiet first more firstRuns moreRuns =>
      rw [first.depth_eq] at moreRuns
      rw [Task.perform, Block.exec, Eval.bind_of_ok firstRuns]
      exact moreRuns
  | value first more firstRuns moreRuns =>
      rw [first.depth_eq] at moreRuns
      rw [Task.perform, Block.exec, Eval.bind_of_ok firstRuns]
      exact moreRuns
  | block body bodyRuns =>
      rw [Task.perform] at bodyRuns
      rw [Task.perform, Eval.inBlock, bodyRuns]
      cases ‹Except Fault Outcome› <;> rfl
  | arity mismatch =>
      rw [Task.perform, Function.call_apply, if_pos mismatch]
  | refused fits excess =>
      rw [Task.perform, Function.call_apply, if_neg (not_not.mpr fits),
        if_neg (Bool.eq_false_iff.mp excess)]
  | scopeFails fits room unbound =>
      rw [Task.perform, Function.call_apply, if_neg (not_not.mpr fits),
        if_pos room, Function.activate, unbound]
      rfl
  | bodyFails fits room bound body bodyRuns =>
      rw [Task.perform, Function.call_apply, if_neg (not_not.mpr fits),
        if_pos room, Function.activate, bound]
      rw [Task.perform] at bodyRuns
      dsimp only at bodyRuns ⊢
      rw [bodyRuns]
  | bodyEnds fits room bound body bodyRuns =>
      rw [Task.perform, Function.call_apply, if_neg (not_not.mpr fits),
        if_pos room, Function.activate, bound]
      rw [Task.perform] at bodyRuns
      dsimp only at bodyRuns ⊢
      rw [bodyRuns]

end Ends

/-! ## Every task ends under a limit -/

namespace Exit

/-- An expression stops or gives a value. -/
theorem flow_or_value {α : Type} (result : Except Fault (Flow α)) :
    (∃ exit : Exit, result = exit.flow) ∨ ∃ value, result = .ok (.value value) := by
  rcases result with fault | (value | given)
  · exact .inl ⟨.fault fault, rfl⟩
  · exact .inr ⟨value, rfl⟩
  · exact .inl ⟨.returned given, rfl⟩

/-- A statement stops, or ends with or without a value. -/
theorem outcome_or_quiet_or_value (result : Except Fault Outcome) :
    (∃ exit : Exit, result = exit.outcome) ∨
      result = .ok .quiet ∨ ∃ value, result = .ok (.value value) := by
  rcases result with fault | (_ | value | given)
  · exact .inl ⟨.fault fault, rfl⟩
  · exact .inr (.inl rfl)
  · exact .inr (.inr ⟨value, rfl⟩)
  · exact .inl ⟨.returned given, rfl⟩

end Exit

/-- A task ends on every machine on which `depth` calls are active. -/
def Task.EndsAt (limit : DepthLimit) (refusal : Fault) (depth : Nat) (task : Task) : Prop :=
  ∀ machine : Machine, machine.depth = depth →
    ∃ result after, Ends limit refusal task machine result after

/-- Every call ends where `depth` calls are active. -/
def CallsEnd (limit : DepthLimit) (refusal : Fault) (depth : Nat) : Prop :=
  ∀ (function : Function) (args : List Value) (self : Text),
    (Task.call function args self).EndsAt limit refusal depth

section Syntax

variable {limit : DepthLimit} {refusal : Fault} {depth : Nat}

theorem Task.block_endsAt
    {stmts : List Stmt}
    (body : (Task.seq .quiet stmts).EndsAt limit refusal depth) :
    (Task.block stmts).EndsAt limit refusal depth := by
  intro machine active
  obtain ⟨result, after, ends⟩ := body { machine with scope := machine.scope.push } active
  exact ⟨_, _, .block ends⟩

/-- A call resolves its callee and ends as the called function does. -/
theorem Task.call_endsAt
    (callsEnd : CallsEnd limit refusal depth)
    {args : List Expr}
    (ends : (Task.args args).EndsAt limit refusal depth)
    (callee : Expr) :
    (Task.expr (.call callee args)).EndsAt limit refusal depth := by
  intro machine active
  obtain ⟨result, between, first⟩ := ends machine active
  obtain ⟨exit, rfl⟩ | ⟨values, rfl⟩ := Exit.flow_or_value result
  · exact ⟨_, _, .argsExit exit first⟩
  · cases resolved : callee.callee between.scope with
    | error fault => exact ⟨_, _, .calleeFails first resolved⟩
    | ok target =>
        obtain ⟨result, after, second⟩ :=
          callsEnd target.1 values target.2 between (first.depth_eq.trans active)
        exact ⟨_, _, .callee first resolved second⟩

mutual

theorem Expr.endsAt (callsEnd : CallsEnd limit refusal depth) (expr : Expr) :
    (Task.expr expr).EndsAt limit refusal depth := by
  intro machine active
  cases expr with
  | name _ name => exact ⟨_, _, .name⟩
  | int _ value => exact ⟨_, _, .int⟩
  | bool _ value => exact ⟨_, _, .bool⟩
  | function _ params body => exact ⟨_, _, .function⟩
  | unary _ op operand =>
      obtain ⟨result, after, inner⟩ := Expr.endsAt callsEnd operand machine active
      obtain ⟨exit, rfl⟩ | ⟨value, rfl⟩ := Exit.flow_or_value result
      · exact ⟨_, _, .operandExits exit inner⟩
      · exact ⟨_, _, .unary inner⟩
  | binary left op right =>
      obtain ⟨result, between, first⟩ := Expr.endsAt callsEnd left machine active
      obtain ⟨exit, rfl⟩ | ⟨leftValue, rfl⟩ := Exit.flow_or_value result
      · exact ⟨_, _, .leftExits exit first⟩
      · obtain ⟨result, after, second⟩ :=
          Expr.endsAt callsEnd right between (first.depth_eq.trans active)
        obtain ⟨exit, rfl⟩ | ⟨rightValue, rfl⟩ := Exit.flow_or_value result
        · exact ⟨_, _, .rightExits exit first second⟩
        · exact ⟨_, _, .binary first second⟩
  | branch _ condition thenArm elseArm =>
      obtain ⟨result, between, test⟩ := Expr.endsAt callsEnd condition machine active
      have inside : between.depth = depth := test.depth_eq.trans active
      obtain ⟨exit, rfl⟩ | ⟨value, rfl⟩ := Exit.flow_or_value result
      · exact ⟨_, _, .conditionExits exit test⟩
      · rcases asBool : value.asBool with error | (_ | _)
        · exact ⟨_, _, .conditionFails test asBool⟩
        · cases arm : elseArm with
          | none => exact ⟨_, _, .noElse test asBool⟩
          | some block =>
              obtain ⟨result, after, ends⟩ :=
                Task.block_endsAt (Block.endsAtElse callsEnd elseArm block arm) between inside
              exact ⟨_, _, .elseArm test asBool ends⟩
        · obtain ⟨result, after, ends⟩ :=
            Task.block_endsAt (Block.endsAt callsEnd .quiet thenArm) between inside
          exact ⟨_, _, .thenArm test asBool ends⟩
  | call callee args =>
      exact Task.call_endsAt callsEnd (Expr.endsAtAll callsEnd args) callee machine active
  | missing => exact ⟨_, _, .missingExpr⟩
termination_by structural expr

theorem Expr.endsAtAll (callsEnd : CallsEnd limit refusal depth) (exprs : List Expr) :
    (Task.args exprs).EndsAt limit refusal depth := by
  intro machine active
  cases exprs with
  | nil => exact ⟨_, _, .noArgs⟩
  | cons expr exprs =>
      obtain ⟨result, between, first⟩ := Expr.endsAt callsEnd expr machine active
      obtain ⟨exit, rfl⟩ | ⟨value, rfl⟩ := Exit.flow_or_value result
      · exact ⟨_, _, .argExits exit first⟩
      · obtain ⟨result, after, more⟩ :=
          Expr.endsAtAll callsEnd exprs between (first.depth_eq.trans active)
        obtain ⟨exit, rfl⟩ | ⟨values, rfl⟩ := Exit.flow_or_value result
        · exact ⟨_, _, .moreArgsExit exit first more⟩
        · exact ⟨_, _, .args first more⟩
termination_by structural exprs

theorem Stmt.endsAt (callsEnd : CallsEnd limit refusal depth) (stmt : Stmt) :
    (Task.stmt stmt).EndsAt limit refusal depth := by
  intro machine active
  cases stmt with
  | declare pos name value =>
      obtain ⟨result, after, inner⟩ := Expr.endsAt callsEnd value machine active
      obtain ⟨exit, rfl⟩ | ⟨given, rfl⟩ := Exit.flow_or_value result
      · exact ⟨_, _, .stmtExits (.declare pos name) exit inner⟩
      · cases bound : after.scope.bind name given with
        | ok scope => exact ⟨_, _, .declare inner bound⟩
        | error fault => exact ⟨_, _, .declareFails inner bound⟩
  | assign pos name value =>
      obtain ⟨result, after, inner⟩ := Expr.endsAt callsEnd value machine active
      obtain ⟨exit, rfl⟩ | ⟨given, rfl⟩ := Exit.flow_or_value result
      · exact ⟨_, _, .stmtExits (.assign pos name) exit inner⟩
      · cases assigned : after.scope.assign name given with
        | ok scope => exact ⟨_, _, .assign inner assigned⟩
        | error error => exact ⟨_, _, .assignFails inner assigned⟩
  | expr value =>
      obtain ⟨result, after, inner⟩ := Expr.endsAt callsEnd value machine active
      obtain ⟨exit, rfl⟩ | ⟨given, rfl⟩ := Exit.flow_or_value result
      · exact ⟨_, _, .stmtExits .expr exit inner⟩
      · exact ⟨_, _, .expr inner⟩
  | result pos value =>
      obtain ⟨result, after, inner⟩ := Expr.endsAt callsEnd value machine active
      obtain ⟨exit, rfl⟩ | ⟨given, rfl⟩ := Exit.flow_or_value result
      · exact ⟨_, _, .stmtExits (.result pos) exit inner⟩
      · exact ⟨_, _, .result inner⟩
  | missing => exact ⟨_, _, .missingStmt⟩
termination_by structural stmt

theorem Block.endsAt
    (callsEnd : CallsEnd limit refusal depth)
    (last : Outcome)
    (stmts : List Stmt) :
    (Task.seq last stmts).EndsAt limit refusal depth := by
  intro machine active
  cases stmts with
  | nil => exact ⟨_, _, .done⟩
  | cons stmt stmts =>
      obtain ⟨result, between, first⟩ := Stmt.endsAt callsEnd stmt machine active
      have inside : between.depth = depth := first.depth_eq.trans active
      obtain ⟨exit, rfl⟩ | rfl | ⟨value, rfl⟩ := Exit.outcome_or_quiet_or_value result
      · exact ⟨_, _, .seqExits exit first⟩
      · obtain ⟨result, after, more⟩ := Block.endsAt callsEnd last stmts between inside
        exact ⟨_, _, .quiet first more⟩
      · obtain ⟨result, after, more⟩ :=
          Block.endsAt callsEnd (.value value) stmts between inside
        exact ⟨_, _, .value first more⟩
termination_by structural stmts

theorem Block.endsAtElse
    (callsEnd : CallsEnd limit refusal depth)
    (arm : Option (List Stmt)) :
    ∀ block, arm = some block → (Task.seq .quiet block).EndsAt limit refusal depth := by
  cases arm with
  | none => exact fun _ impossible => nomatch impossible
  | some block =>
      rintro _ ⟨rfl⟩
      exact Block.endsAt callsEnd .quiet block
termination_by structural arm

end

/-- Every task ends where every call ends. -/
theorem Task.endsAt (callsEnd : CallsEnd limit refusal depth) (task : Task) :
    task.EndsAt limit refusal depth := by
  cases task with
  | expr expr => exact Expr.endsAt callsEnd expr
  | args exprs => exact Expr.endsAtAll callsEnd exprs
  | stmt stmt => exact Stmt.endsAt callsEnd stmt
  | seq last stmts => exact Block.endsAt callsEnd last stmts
  | block stmts => exact Task.block_endsAt (Block.endsAt callsEnd .quiet stmts)
  | call function args self => exact callsEnd function args self

end Syntax

/-- Every call ends under a limit, by induction on the number of calls that may
still be nested. -/
theorem CallsEnd.atMost
    (refusal : Fault)
    {calls room depth : Nat}
    (left : calls - depth = room) :
    CallsEnd (.atMost calls) refusal depth := by
  induction room generalizing depth with
  | zero =>
      rintro function args self machine rfl
      by_cases fits : args.length = function.arity
      · have excess : (DepthLimit.atMost calls).admits (machine.depth + 1) = false :=
          decide_eq_false (by omega)
        exact ⟨_, _, .refused fits excess⟩
      · exact ⟨_, _, .arity fits⟩
  | succ room inductionHypothesis =>
      rintro function args self machine rfl
      by_cases fits : args.length = function.arity
      · have room : (DepthLimit.atMost calls).admits (machine.depth + 1) = true :=
          decide_eq_true (by omega)
        cases bound : function.scope args self with
        | error fault => exact ⟨_, _, .scopeFails fits room bound⟩
        | ok scope =>
            have callsEnd : CallsEnd (.atMost calls) refusal (machine.depth + 1) :=
              inductionHypothesis (by omega)
            obtain ⟨result, after, body⟩ := Block.endsAt callsEnd .quiet function.body
              ⟨scope, machine.depth + 1,
                .calling self args.length (machine.depth + 1) :: machine.trace⟩ rfl
            cases result with
            | error fault => exact ⟨_, _, .bodyFails fits room bound body⟩
            | ok outcome => exact ⟨_, _, .bodyEnds fits room bound body⟩
      · exact ⟨_, _, .arity fits⟩

/-- Under a limit there is a derivation of exactly what the functions compute. -/
theorem Ends.iff_perform
    {calls : Nat}
    {refusal : Fault}
    {task : Task}
    {machine after : Machine}
    {result : Except Fault task.Answer} :
    Ends (.atMost calls) refusal task machine result after ↔
      task.perform (Function.call refusal (calls - machine.depth)) machine = (result, after) := by
  refine ⟨Ends.perform_eq, fun run => ?_⟩
  obtain ⟨result', after', ends⟩ := Task.endsAt (CallsEnd.atMost refusal rfl) task machine rfl
  obtain ⟨rfl, rfl⟩ := Prod.mk.inj (ends.perform_eq.symm.trans run)
  exact ends

/-- Evaluation under a limit ends, whatever is evaluated on whatever machine:
expressions, arguments, statements, blocks and calls have a finite derivation, and
what they end with is what the functions compute. -/
theorem limited_evaluation_ends (calls : Nat) (task : Task) (machine : Machine) :
    (∃ result after, Ends (.atMost calls) (DepthLimit.atMost calls).refusal task machine
      result after) ∧
    ∀ result after,
      Ends (.atMost calls) (DepthLimit.atMost calls).refusal task machine result after ↔
        task.perform ((DepthLimit.atMost calls).caller machine.depth) machine =
          (result, after) :=
  ⟨Task.endsAt (CallsEnd.atMost _ rfl) task machine rfl, fun _ _ => Ends.iff_perform⟩

end Siren
