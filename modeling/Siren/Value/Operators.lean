import Siren.Fault
import Siren.Value

/-!
# Operators on values

Arithmetic is on 64-bit integers and fails when the exact result does not fit.
The tests for that use only sums and quotients that fit themselves.
Comparisons need operands of one kind; units can only be tested for equality,
and functions not at all.
-/

namespace Siren
namespace Value

/-- The integer in a value. -/
def asInt : Value → Except RuntimeError Int64
  | .int value => .ok value
  | other => .error (.typeMismatch (kindName (.int 0)) other.kindName)

/-- The truth value in a value. -/
def asBool : Value → Except RuntimeError Bool
  | .bool value => .ok value
  | other => .error (.typeMismatch (kindName (.bool false)) other.kindName)

end Value

namespace Integer

/-- The sum of two integers, if it fits. -/
def add (left right : Int64) : Except RuntimeError Int64 :=
  if (0 < right && Int64.maxValue - right < left) ||
      (right < 0 && left < Int64.minValue - right) then
    .error .integerOverflow
  else
    .ok (left + right)

/-- The difference of two integers, if it fits. -/
def subtract (left right : Int64) : Except RuntimeError Int64 :=
  if (right < 0 && Int64.maxValue + right < left) ||
      (0 < right && left < Int64.minValue + right) then
    .error .integerOverflow
  else
    .ok (left - right)

/-- The product of two integers, if it fits. -/
def multiply (left right : Int64) : Except RuntimeError Int64 :=
  if left = 0 || right = 0 then
    .ok 0
  else if (left = -1 && right = Int64.minValue) ||
      (right = -1 && left = Int64.minValue) then
    .error .integerOverflow
  else if left * right / right ≠ left then
    .error .integerOverflow
  else
    .ok (left * right)

/-- The quotient of two integers without its fraction, if it fits. -/
def divide (left right : Int64) : Except RuntimeError Int64 :=
  if right = 0 then
    .error .divisionByZero
  else if left = Int64.minValue && right = -1 then
    .error .integerOverflow
  else
    .ok (left / right)

/-- The negative of an integer, if it fits. -/
def negate (value : Int64) : Except RuntimeError Int64 :=
  if value = Int64.minValue then
    .error .integerOverflow
  else
    .ok (-value)

end Integer

/-- The value of a prefix operator on its operand. -/
def UnaryOp.apply (op : UnaryOp) (operand : Value) : Except Fault Value :=
  match op with
  | .negate =>
    match operand.asInt >>= Integer.negate with
    | .ok value => .ok (.int value)
    | .error error => .error (.runtime error)
  | .not =>
    match operand.asBool with
    | .ok value => .ok (.bool !value)
    | .error error => .error (.runtime error)
  | .other _ => .error (.unknownUnary op)

namespace BinaryOp

/-- How two values of one kind are ordered; false comes before true.  Units are
equal, and can be asked about by equality and inequality only. -/
def order (op : BinaryOp) (left right : Value) : Except RuntimeError Ordering :=
  match left, right with
  | .fn _, .fn _ => .error .uncomparableFunction
  | .int left, .int right => .ok (compare left right)
  | .bool left, .bool right => .ok (compare left right)
  | .unit, .unit =>
    if op = .equal || op = .notEqual then
      .ok .eq
    else
      .error (.typeMismatch "int or bool" left.kindName)
  | .foreign code, .foreign code' =>
    if code = code' then
      .error (.typeMismatch "int or bool" left.kindName)
    else
      .error (.typeMismatch left.kindName right.kindName)
  | _, _ => .error (.typeMismatch left.kindName right.kindName)

/-- What a comparison says about operands in an order. -/
def holds? : BinaryOp → Ordering → Option Bool
  | .equal, order => some (order = .eq)
  | .notEqual, order => some (order ≠ .eq)
  | .less, order => some (order = .lt)
  | .lessEqual, order => some (order ≠ .gt)
  | .greater, order => some (order = .gt)
  | .greaterEqual, order => some (order ≠ .lt)
  | _, _ => none

/-- The value of a comparison. -/
def applyComparison (op : BinaryOp) (left right : Value) : Except Fault Value :=
  match op.order left right with
  | .error error => .error (.runtime error)
  | .ok order =>
    match op.holds? order with
    | some value => .ok (.bool value)
    | none => .error (.unknownComparison op)

/-- The value of an arithmetic operator on integers. -/
def applyIntegers (op : BinaryOp) (left right : Int64) : Except Fault Int64 :=
  match op with
  | .add => (Integer.add left right).mapError .runtime
  | .subtract => (Integer.subtract left right).mapError .runtime
  | .multiply => (Integer.multiply left right).mapError .runtime
  | .divide => (Integer.divide left right).mapError .runtime
  | _ => .error (.unknownBinary op)

/-- The value of an arithmetic operator, whose operands must be integers. -/
def applyArithmetic (op : BinaryOp) (left right : Value) : Except Fault Value := do
  let left ← left.asInt.mapError Fault.runtime
  let right ← right.asInt.mapError Fault.runtime
  return .int (← op.applyIntegers left right)

/-- The value of an operator on its operands. -/
def apply (op : BinaryOp) (left right : Value) : Except Fault Value :=
  if op.isComparison then
    op.applyComparison left right
  else
    op.applyArithmetic left right

end BinaryOp
end Siren
