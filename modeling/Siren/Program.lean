import Siren.Position

/-!
# Programs

A program is a list of statements over expressions.  Every node that has a
token of its own keeps the position of that token.  Trees that no source text
produces can be built too: operators beyond the known ones, and missing nodes.
-/

namespace Siren

/-- A prefix operator; `other` is an operator code without a meaning. -/
inductive UnaryOp where
  | negate
  | not
  | other (code : Int)
  deriving DecidableEq, Repr

/-- An operator between two operands; `other` is an operator code without a
meaning. -/
inductive BinaryOp where
  | add
  | subtract
  | multiply
  | divide
  | equal
  | notEqual
  | less
  | lessEqual
  | greater
  | greaterEqual
  | other (code : Int)
  deriving DecidableEq, Repr

mutual

/-- An expression. -/
inductive Expr where
  /-- A name. -/
  | name (pos : Position) (name : Text)
  /-- An integer. -/
  | int (pos : Position) (value : Int64)
  /-- A truth value. -/
  | bool (pos : Position) (value : Bool)
  /-- A prefix operator on its operand. -/
  | unary (pos : Position) (op : UnaryOp) (operand : Expr)
  /-- An operator between its operands. -/
  | binary (left : Expr) (op : BinaryOp) (right : Expr)
  /-- A function with its parameters and its body. -/
  | function (pos : Position) (params : List Text) (body : List Stmt)
  /-- A call with its arguments. -/
  | call (callee : Expr) (args : List Expr)
  /-- A choice between two blocks, of which the second may be absent. -/
  | branch (pos : Position) (condition : Expr) (thenArm : List Stmt)
      (elseArm : Option (List Stmt))
  /-- No expression where one should stand. -/
  | missing

/-- A statement. -/
inductive Stmt where
  /-- The declaration of a name. -/
  | declare (pos : Position) (name : Text) (value : Expr)
  /-- A new value for a declared name. -/
  | assign (pos : Position) (name : Text) (value : Expr)
  /-- An expression for its value. -/
  | expr (value : Expr)
  /-- The end of the enclosing call with its result. -/
  | result (pos : Position) (value : Expr)
  /-- No statement where one should stand. -/
  | missing

end

/-- The statements of a function body or of an arm of a choice. -/
abbrev Block := List Stmt

/-- The statements of a whole source text. -/
abbrev Program := List Stmt

instance : Inhabited Expr := ⟨.missing⟩

instance : Inhabited Stmt := ⟨.missing⟩

namespace UnaryOp

/-- The operator with a code. -/
def ofCode : Int → UnaryOp
  | 0 => .negate
  | 1 => .not
  | code => .other code

/-- The spelling of an operator; unknown operators have none. -/
def text : UnaryOp → Text
  | .negate => "-"
  | .not => "!"
  | .other _ => []

end UnaryOp

namespace BinaryOp

/-- The operator with a code. -/
def ofCode : Int → BinaryOp
  | 0 => .add
  | 1 => .subtract
  | 2 => .multiply
  | 3 => .divide
  | 4 => .equal
  | 5 => .notEqual
  | 6 => .less
  | 7 => .lessEqual
  | 8 => .greater
  | 9 => .greaterEqual
  | code => .other code

/-- The spelling of an operator; unknown operators have none. -/
def text : BinaryOp → Text
  | .add => "+"
  | .subtract => "-"
  | .multiply => "*"
  | .divide => "/"
  | .equal => "=="
  | .notEqual => "!="
  | .less => "<"
  | .lessEqual => "<="
  | .greater => ">"
  | .greaterEqual => ">="
  | .other _ => []

/-- Whether the operator compares its operands; of the unknown operators those
with a code of at least four do. -/
def isComparison : BinaryOp → Bool
  | .add | .subtract | .multiply | .divide => false
  | .equal | .notEqual | .less | .lessEqual | .greater | .greaterEqual => true
  | .other code => 4 ≤ code

end BinaryOp

/-- The position of an expression: of its own token, or of its leftmost part. -/
def Expr.pos : Expr → Position
  | .name pos _ => pos
  | .int pos _ => pos
  | .bool pos _ => pos
  | .unary pos _ _ => pos
  | .binary left _ _ => left.pos
  | .function pos _ _ => pos
  | .call callee _ => callee.pos
  | .branch pos _ _ _ => pos
  | .missing => .nowhere

/-- The position of a statement. -/
def Stmt.pos : Stmt → Position
  | .declare pos _ _ => pos
  | .assign pos _ _ => pos
  | .expr value => value.pos
  | .result pos _ => pos
  | .missing => .nowhere

end Siren
