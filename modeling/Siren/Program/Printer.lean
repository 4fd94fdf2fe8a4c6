import Siren.Program

/-!
# The printed form of a program

Printing puts parentheses around every operator, names the kind of each
statement, and closes every statement of a block with a semicolon, so the text
shows how the program was read.
-/

namespace Siren

/-- The printed form of a block around the printed form of its statements. -/
def Block.braces (statements : Text) : Text :=
  "\x7b " ++ statements ++ "\x7d"

mutual

/-- The printed form of an expression. -/
def Expr.text : Expr → Text
  | .name _ name => name
  | .int _ value => Text.ofInt value.toInt
  | .bool _ value => Text.ofBool value
  | .unary _ op operand => "(" ++ op.text ++ operand.text ++ ")"
  | .binary left op right =>
    "(" ++ left.text ++ " " ++ op.text ++ " " ++ right.text ++ ")"
  | .function _ params body =>
    "fn(" ++ Text.join ", " params ++ ") " ++ Block.braces (Block.closedText body)
  | .call callee args => callee.text ++ "(" ++ Text.join ", " (Expr.texts args) ++ ")"
  | .branch _ condition thenArm elseArm =>
    "if " ++ condition.text ++ " " ++ Block.braces (Block.closedText thenArm) ++
      Block.elseText elseArm
  | .missing => []
termination_by structural expr => expr

/-- The printed form of a statement. -/
def Stmt.text : Stmt → Text
  | .declare _ name value => "let " ++ name ++ " = " ++ value.text
  | .assign _ name value => "set " ++ name ++ " = " ++ value.text
  | .expr value => "expr " ++ value.text
  | .result _ value => "return " ++ value.text
  | .missing => []
termination_by structural stmt => stmt

/-- The printed forms of expressions. -/
def Expr.texts : List Expr → List Text
  | [] => []
  | expr :: exprs => expr.text :: Expr.texts exprs
termination_by structural exprs => exprs

/-- The printed form of the statements of a block, each closed. -/
def Block.closedText : List Stmt → Text
  | [] => []
  | stmt :: stmts => stmt.text ++ "; " ++ Block.closedText stmts
termination_by structural stmts => stmts

/-- The printed form of the second arm of a choice. -/
def Block.elseText : Option (List Stmt) → Text
  | none => []
  | some block => " else " ++ Block.braces (Block.closedText block)
termination_by structural arm => arm

end

/-- The printed form of a block. -/
def Block.text (block : Block) : Text :=
  Block.braces (Block.closedText block)

/-- The printed form of a program, one statement a line. -/
def Program.text (program : Program) : Text :=
  Text.join [Text.lineFeed] (program.map Stmt.text)

/-- Expressions are printed one by one. -/
theorem Expr.texts_eq_map (exprs : List Expr) :
    Expr.texts exprs = exprs.map Expr.text := by
  induction exprs with
  | nil => rfl
  | cons expr exprs hypothesis => simp [Expr.texts, hypothesis]

end Siren
