import Siren.Program.Printer

/-!
# The outline of a program

The outline lists the nodes of a program from the root down, each with its
depth, its own data and its position.
-/

namespace Siren

/-- A node of a program: its depth in the tree, its description and its
position. -/
structure OutlineLine where
  depth : Nat
  node : Text
  pos : Position

namespace OutlineLine

/-- An outline line as text, with the position as line, column and offset. -/
def text (line : OutlineLine) : Text :=
  Text.ofNat line.depth ++ " " ++ line.node ++ " " ++ line.pos.text ++ ":" ++
    Text.ofNat line.pos.offset

end OutlineLine

mutual

/-- The outline of an expression at a depth. -/
def Expr.outline (depth : Nat) : Expr → List OutlineLine
  | .name pos name => [⟨depth, "Ident " ++ name, pos⟩]
  | .int pos value => [⟨depth, "Int " ++ Text.ofInt value.toInt, pos⟩]
  | .bool pos value => [⟨depth, "Bool " ++ Text.ofBool value, pos⟩]
  | .unary pos op operand =>
    ⟨depth, "Unary " ++ op.text, pos⟩ :: operand.outline (depth + 1)
  | .binary left op right =>
    ⟨depth, "Binary " ++ op.text, left.pos⟩ ::
      (left.outline (depth + 1) ++ right.outline (depth + 1))
  | .function pos params body =>
    ⟨depth, "Function(" ++ Text.join "," params ++ ") " ++ Text.ofNat body.length, pos⟩ ::
      Block.outline (depth + 1) body
  | .call callee args =>
    ⟨depth, "Call " ++ Text.ofNat args.length, callee.pos⟩ ::
      (callee.outline (depth + 1) ++ Expr.outlines (depth + 1) args)
  | .branch pos condition thenArm elseArm =>
    ⟨depth, "If " ++ Text.ofNat thenArm.length ++ (match elseArm with
      | none => []
      | some block => " Else " ++ Text.ofNat block.length), pos⟩ ::
      (condition.outline (depth + 1) ++ Block.outline (depth + 1) thenArm ++
        Block.elseOutline (depth + 1) elseArm)
  | .missing => []
termination_by structural expr => expr

/-- The outline of a statement at a depth. -/
def Stmt.outline (depth : Nat) : Stmt → List OutlineLine
  | .declare pos name value =>
    ⟨depth, "Let " ++ name, pos⟩ :: value.outline (depth + 1)
  | .assign pos name value =>
    ⟨depth, "Set " ++ name, pos⟩ :: value.outline (depth + 1)
  | .expr value => ⟨depth, "ExprStmt", value.pos⟩ :: value.outline (depth + 1)
  | .result pos value => ⟨depth, "Return", pos⟩ :: value.outline (depth + 1)
  | .missing => []
termination_by structural stmt => stmt

/-- The outlines of expressions at a depth, in order. -/
def Expr.outlines (depth : Nat) : List Expr → List OutlineLine
  | [] => []
  | expr :: exprs => expr.outline depth ++ Expr.outlines depth exprs
termination_by structural exprs => exprs

/-- The outlines of statements at a depth, in order. -/
def Block.outline (depth : Nat) : List Stmt → List OutlineLine
  | [] => []
  | stmt :: stmts => stmt.outline depth ++ Block.outline depth stmts
termination_by structural stmts => stmts

/-- The outline of the second arm of a choice. -/
def Block.elseOutline (depth : Nat) : Option (List Stmt) → List OutlineLine
  | none => []
  | some block => Block.outline depth block
termination_by structural arm => arm

end

/-- The outline of a program. -/
def Program.outline (program : Program) : List OutlineLine :=
  Block.outline 0 program

end Siren
