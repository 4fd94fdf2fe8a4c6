import Siren.Program

/-!
# Faults

Evaluation fails with a runtime error, which names one of nine reasons, or
because the tree has a part without a meaning.  No tree read from a source text
has such parts.
-/

namespace Siren

/-- Why a program failed. -/
inductive Reason where
  | duplicateBinding
  | unknownVariable
  | typeMismatch
  | notCallable
  | arityMismatch
  | divisionByZero
  | uncomparableFunction
  | integerOverflow
  | callDepthExceeded
  deriving DecidableEq, Repr

namespace Reason

/-- A reason in general words. -/
def text : Reason → Text
  | .duplicateBinding => "duplicate binding"
  | .unknownVariable => "unknown variable"
  | .typeMismatch => "type mismatch"
  | .notCallable => "not callable"
  | .arityMismatch => "arity mismatch"
  | .divisionByZero => "division by zero"
  | .uncomparableFunction => "functions cannot be compared"
  | .integerOverflow => "integer overflow"
  | .callDepthExceeded => "maximum call depth exceeded"

end Reason

/-- A reason with what it is about; details that do not apply are empty. -/
structure RuntimeError where
  reason : Reason
  /-- The name that is declared twice or not at all. -/
  name : Text := []
  /-- The expected kind or number. -/
  expected : Text := []
  /-- The kind, number or callee found instead. -/
  found : Text := []
  deriving DecidableEq, Repr

namespace RuntimeError

/-- The message of a runtime error. -/
def message (error : RuntimeError) : Text :=
  match error.reason with
  | .duplicateBinding =>
    "variable `" ++ error.name ++ "` is already declared in this block"
  | .unknownVariable => "no such variable: " ++ error.name
  | .typeMismatch =>
    "type mismatch: expected " ++ error.expected ++ ", found " ++ error.found
  | .arityMismatch =>
    "expected " ++ error.expected ++ " arguments, found " ++ error.found
  | .notCallable =>
    if error.found = [] then error.reason.text else error.found ++ " is not callable"
  | .callDepthExceeded =>
    if error.expected = [] then
      error.reason.text
    else
      "maximum call depth of " ++ error.expected ++ " exceeded"
  | .divisionByZero | .uncomparableFunction | .integerOverflow => error.reason.text

/-- The block already declares the name. -/
def duplicateBinding (name : Text) : RuntimeError :=
  { reason := .duplicateBinding, name }

/-- No block around declares the name. -/
def unknownVariable (name : Text) : RuntimeError :=
  { reason := .unknownVariable, name }

/-- A value of one kind stands where another is needed. -/
def typeMismatch (expected found : Text) : RuntimeError :=
  { reason := .typeMismatch, expected, found }

/-- The callee is no function. -/
def notCallable (found : Text) : RuntimeError :=
  { reason := .notCallable, found }

/-- A call has too few or too many arguments. -/
def arityMismatch (expected found : Nat) : RuntimeError :=
  { reason := .arityMismatch, expected := Text.ofNat expected, found := Text.ofNat found }

/-- The divisor is zero. -/
def divisionByZero : RuntimeError :=
  { reason := .divisionByZero }

/-- Both operands of a comparison are functions. -/
def uncomparableFunction : RuntimeError :=
  { reason := .uncomparableFunction }

/-- The result does not fit into 64 bits. -/
def integerOverflow : RuntimeError :=
  { reason := .integerOverflow }

/-- More calls are active than the limit allows. -/
def callDepthExceeded (limit : Nat) : RuntimeError :=
  { reason := .callDepthExceeded, expected := Text.ofNat limit }

end RuntimeError

/-- How evaluation fails. -/
inductive Fault where
  /-- The program does something wrong. -/
  | runtime (error : RuntimeError)
  /-- A statement is missing. -/
  | missingStatement
  /-- An expression is missing. -/
  | missingExpression
  /-- A prefix operator has no meaning. -/
  | unknownUnary (op : UnaryOp)
  /-- An arithmetic operator has no meaning. -/
  | unknownBinary (op : BinaryOp)
  /-- A comparison has no meaning. -/
  | unknownComparison (op : BinaryOp)
  /-- A name is declared where no block is open. -/
  | noBlock
  /-- More calls are active than can be followed when there is no limit. -/
  | exhausted
  deriving DecidableEq, Repr

namespace Fault

instance : Coe RuntimeError Fault := ⟨.runtime⟩

/-- The message of a fault. -/
def message : Fault → Text
  | .runtime error => error.message
  | .missingStatement => "unsupported statement: <nil>"
  | .missingExpression => "unsupported expression: <nil>"
  | .unknownUnary op => "unsupported unary op: " ++ op.text
  | .unknownBinary op => "unsupported binary op: " ++ op.text
  | .unknownComparison op => "unsupported comparison: " ++ op.text
  | .noBlock => "no block is open"
  | .exhausted => "too many active calls"

end Fault
end Siren
