import Siren.Program.Printer

/-!
# Values

Evaluation gives units, 64-bit integers, truth values and functions.  A
function is only its parameters and its body: it keeps nothing of the place
where it was made.
-/

namespace Siren

/-- Parameters and a body. -/
structure Function where
  params : List Text
  body : Block

namespace Function

/-- The number of parameters. -/
def arity (function : Function) : Nat :=
  function.params.length

/-- The printed form of a function. -/
def text (function : Function) : Text :=
  "fn(" ++ Text.join ", " function.params ++ ") " ++ Block.text function.body

end Function

/-- A value; `foreign` is a kind code that no evaluation gives. -/
inductive Value where
  | unit
  | int (value : Int64)
  | bool (value : Bool)
  | fn (function : Function)
  | foreign (code : Int)

namespace Value

instance : Inhabited Value := ⟨.unit⟩

/-- The name of the kind of a value. -/
def kindName : Value → Text
  | .unit => "unit"
  | .int _ => "int"
  | .bool _ => "bool"
  | .fn _ => "fn"
  | .foreign code => "unknown(" ++ Text.ofInt code ++ ")"

/-- The printed form of a value. -/
def text : Value → Text
  | .unit => "()"
  | .int value => Text.ofInt value.toInt
  | .bool value => Text.ofBool value
  | .fn function => function.text
  | .foreign _ => "<invalid>"

/-- Whether a value is the unit. -/
def isUnit : Value → Bool
  | .unit => true
  | _ => false

/-- The value of a kind code with nothing in it. -/
def ofKindCode : Int → Value
  | 0 => .unit
  | 1 => .int 0
  | 2 => .bool false
  | 3 => .fn ⟨[], []⟩
  | code => .foreign code

end Value
end Siren
