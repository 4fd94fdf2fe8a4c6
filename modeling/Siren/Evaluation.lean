import Siren.Scope
import Siren.Value.Operators

/-!
# Evaluation

Programs are evaluated in a machine that holds the scope of the running call,
the number of active calls and the trace of calls made so far.  Evaluating a
tree is recursive on the tree, and calling a function on the number of further
calls that may be nested, so evaluation always ends.

A `return` travels outwards as part of the result: once one has been met,
nothing more of the running call is evaluated.
-/

namespace Siren

/-- What an expression gives: a value to go on with, or the result of a
`return` inside it. -/
inductive Flow (α : Type) where
  | value (value : α)
  | returning (result : Value)

/-- What a statement or a list of statements gives: no value, the value of an
expression, or the result of a `return`. -/
inductive Outcome where
  | quiet
  | value (value : Value)
  | returning (result : Value)

namespace Outcome

/-- The value of an outcome; without one it is the unit. -/
def result : Outcome → Value
  | .quiet => .unit
  | .value given => given
  | .returning given => given

/-- Whether a statement gave a value. -/
def hasValue : Outcome → Bool
  | .quiet => false
  | _ => true

/-- Whether a `return` ended the statements. -/
def isReturning : Outcome → Bool
  | .returning _ => true
  | _ => false

/-- The outcome of a block as the flow of the expression around it. -/
def flow : Outcome → Flow Value
  | .quiet => .value .unit
  | .value given => .value given
  | .returning given => .returning given

end Outcome

/-- A step of a call: its start, with the number of calls then active, or its
end with its outcome.  A call that fails does not end. -/
inductive Event where
  | calling (name : Text) (args : Nat) (depth : Nat)
  | returned (name : Text) (outcome : Outcome)

/-- The state of evaluation. -/
structure Machine where
  /-- The scope of the running call. -/
  scope : Scope
  /-- The number of active calls. -/
  depth : Nat
  /-- The steps of calls made so far, the latest first. -/
  trace : List Event

/-- A computation on a machine that may fail; a failure keeps the changes made
before it. -/
abbrev Eval := ExceptT Fault (StateM Machine)

/-- How a function is called with arguments by a name, which is empty for a
function that is called where it is written. -/
abbrev Caller := Function → List Value → Text → Eval Value

namespace Eval

/-- A result that leaves the machine as it is. -/
@[inline] def ofExcept {α : Type} (result : Except Fault α) : Eval α :=
  fun machine => (result, machine)

/-- The value of a name. -/
@[inline] def lookup (name : Text) : Eval Value := fun machine =>
  (machine.scope.lookup name |>.mapError .runtime, machine)

/-- Declares a name in the running block. -/
@[inline] def bind (name : Text) (value : Value) : Eval Unit := fun machine =>
  match machine.scope.bind name value with
  | .ok scope => (.ok (), { machine with scope })
  | .error fault => (.error fault, machine)

/-- Gives a declared name a new value. -/
@[inline] def assign (name : Text) (value : Value) : Eval Unit := fun machine =>
  match machine.scope.assign name value with
  | .ok scope => (.ok (), { machine with scope })
  | .error error => (.error (.runtime error), machine)

/-- Goes on with the value of an expression, unless it met a `return`. -/
@[inline] def onValue {α β : Type} (first : Eval (Flow α)) (next : α → Eval (Flow β)) :
    Eval (Flow β) := do
  match ← first with
  | .value value => next value
  | .returning result => return .returning result

/-- Runs statements in a block of their own, which is closed on every path. -/
@[inline] def inBlock (body : Eval Outcome) : Eval (Flow Value) := fun machine =>
  match body { machine with scope := machine.scope.push } with
  | (.ok outcome, after) => (.ok outcome.flow, { after with scope := after.scope.pop })
  | (.error fault, after) => (.error fault, { after with scope := after.scope.pop })

end Eval

mutual

/-- Evaluates an expression. -/
def Expr.eval (call : Caller) : Expr → Eval (Flow Value)
  | .name _ name => return .value (← Eval.lookup name)
  | .int _ value => return .value (.int value)
  | .bool _ value => return .value (.bool value)
  | .function _ params body => return .value (.fn ⟨params, body⟩)
  | .unary _ op operand =>
    (operand.eval call).onValue fun value => return .value (← .ofExcept (op.apply value))
  | .binary left op right =>
    (left.eval call).onValue fun left =>
      (right.eval call).onValue fun right =>
        return .value (← .ofExcept (op.apply left right))
  | .branch _ condition thenArm elseArm =>
    (condition.eval call).onValue fun test => do
      if ← .ofExcept (test.asBool.mapError .runtime) then
        .inBlock (Block.exec call .quiet thenArm)
      else
        Block.execElse call elseArm
  | .call callee args =>
    (Expr.evalAll call args).onValue fun args => do
      match callee with
      | .name _ name =>
        match ← Eval.lookup name with
        | .fn function => return .value (← call function args name)
        | other =>
          throw (.runtime (.notCallable (name ++ " (" ++ other.kindName ++ ")")))
      | .function _ params body => return .value (← call ⟨params, body⟩ args [])
      | other => throw (.runtime (.notCallable other.text))
  | .missing => throw .missingExpression
termination_by structural expr => expr

/-- Evaluates the arguments of a call from left to right. -/
def Expr.evalAll (call : Caller) : List Expr → Eval (Flow (List Value))
  | [] => return .value []
  | expr :: exprs =>
    (expr.eval call).onValue fun value =>
      (Expr.evalAll call exprs).onValue fun values => return .value (value :: values)
termination_by structural exprs => exprs

/-- Executes a statement. -/
def Stmt.exec (call : Caller) : Stmt → Eval Outcome
  | .declare _ name value => do
    match ← value.eval call with
    | .value value => Eval.bind name value; return .quiet
    | .returning result => return .returning result
  | .assign _ name value => do
    match ← value.eval call with
    | .value value => Eval.assign name value; return .quiet
    | .returning result => return .returning result
  | .expr value => do
    match ← value.eval call with
    | .value value => return .value value
    | .returning result => return .returning result
  | .result _ value => do
    match ← value.eval call with
    | .value value => return .returning value
    | .returning result => return .returning result
  | .missing => throw .missingStatement
termination_by structural stmt => stmt

/-- Executes statements in order up to the first `return`.  The outcome is that
of the last statement with a value, or else the outcome so far. -/
def Block.exec (call : Caller) (last : Outcome) : List Stmt → Eval Outcome
  | [] => return last
  | stmt :: stmts => do
    match ← stmt.exec call with
    | .quiet => Block.exec call last stmts
    | .value value => Block.exec call (.value value) stmts
    | .returning result => return .returning result
termination_by structural stmts => stmts

/-- Executes the second arm of a choice; an absent one gives the unit. -/
def Block.execElse (call : Caller) : Option (List Stmt) → Eval (Flow Value)
  | none => return .value .unit
  | some block => .inBlock (Block.exec call .quiet block)
termination_by structural arm => arm

end

namespace Function

/-- The scope in which the body of a call starts: the name it was called by, if
any, bound to the function itself, and then the parameters. -/
def scope (function : Function) (args : List Value) (self : Text) : Except Fault Scope :=
  let named : List Binding := if self = [] then [] else [(self, .fn function)]
  Scope.fresh.bindAll (named ++ function.params.zip args)

/-- Runs the body of a call in its own scope with one more call active, and
returns to the caller's scope on every path. -/
def activate (function : Function) (args : List Value) (self : Text) (body : Eval Outcome) :
    Eval Value := fun machine =>
  let depth := machine.depth + 1
  let trace := .calling self args.length depth :: machine.trace
  match function.scope args self with
  | .error fault => (.error fault, { scope := machine.scope, depth := depth - 1, trace })
  | .ok scope =>
    match body { scope, depth, trace } with
    | (.ok outcome, after) =>
      (.ok outcome.result, {
        scope := machine.scope
        depth := after.depth - 1
        trace := .returned self outcome :: after.trace })
    | (.error fault, after) =>
      (.error fault, { after with scope := machine.scope, depth := after.depth - 1 })

/-- Calls a function when `room` more calls may be nested; with no room left
the call fails with `refusal`. -/
def call (refusal : Fault) : Nat → Caller
  | 0, function, args, _ =>
    if args.length = function.arity then
      throw refusal
    else
      throw (.runtime (.arityMismatch function.arity args.length))
  | room + 1, function, args, self =>
    if args.length = function.arity then
      function.activate args self (Block.exec (call refusal room) .quiet function.body)
    else
      throw (.runtime (.arityMismatch function.arity args.length))

end Function

/-- How many calls may be active at once. -/
inductive DepthLimit where
  | atMost (calls : Nat)
  | unlimited
  deriving DecidableEq, Repr

namespace DepthLimit

/-- The limit that holds unless another is chosen. -/
def standard : Int := 10000

/-- The limit that a number stands for: zero and below mean none. -/
def ofInt (number : Int) : DepthLimit :=
  if 0 < number then .atMost number.toNat else .unlimited

/-- The number of active calls that can be followed when there is no limit. -/
def ceiling : Nat := Nat.pow 2 63

/-- The number of further calls that may be nested when `depth` are active. -/
def room (limit : DepthLimit) (depth : Nat) : Nat :=
  match limit with
  | .atMost calls => calls - depth
  | .unlimited => ceiling - depth

/-- The fault of a call for which there is no room. -/
def refusal : DepthLimit → Fault
  | .atMost calls => .runtime (.callDepthExceeded calls)
  | .unlimited => .exhausted

/-- How functions are called under a limit when `depth` calls are active. -/
def caller (limit : DepthLimit) (depth : Nat) : Caller :=
  Function.call limit.refusal (limit.room depth)

end DepthLimit
end Siren
