import Siren.Program
import Siren.Program.Parsed
import Siren.Token.Lexer

/-!
# Reading programs

A source text is read statement by statement.  After a syntax error reading
goes on behind the next semicolon outside of braces, so one source can have
several errors and still give the statements between them.

Operators between operands group to the left by their level.  An expression
that ends in a closing brace ends with its line, unless a parenthesis is open
around it.
-/

namespace Siren

/-- How tightly an operator holds its operands. -/
abbrev Level := Nat

namespace Level

/-- Below every operator. -/
def lowest : Level := 0

/-- Equality and inequality. -/
def equality : Level := 1

/-- Orderings. -/
def ordering : Level := 2

/-- Sums and differences. -/
def sum : Level := 3

/-- Products and quotients. -/
def product : Level := 4

/-- Operators before their operand. -/
def sign : Level := 5

/-- Calls. -/
def call : Level := 6

end Level

/-- What can follow an operand. -/
inductive Continuation where
  /-- The arguments of a call. -/
  | arguments
  /-- An operator and its right operand. -/
  | operator (op : BinaryOp) (level : Level)
  deriving DecidableEq, Repr

namespace Continuation

/-- What a token of a kind starts after an operand. -/
def ofKind? : Kind → Option Continuation
  | .leftParen => some .arguments
  | .equal => some (.operator .equal .equality)
  | .notEqual => some (.operator .notEqual .equality)
  | .less => some (.operator .less .ordering)
  | .lessEqual => some (.operator .lessEqual .ordering)
  | .greater => some (.operator .greater .ordering)
  | .greaterEqual => some (.operator .greaterEqual .ordering)
  | .plus => some (.operator .add .sum)
  | .minus => some (.operator .subtract .sum)
  | .star => some (.operator .multiply .product)
  | .slash => some (.operator .divide .product)
  | _ => none

/-- The level of a continuation. -/
def level : Continuation → Level
  | .arguments => .call
  | .operator _ level => level

end Continuation

/-- Whether an expression that was just read ends here with its line. -/
def Cursor.endsLine (cursor : Cursor) : Bool :=
  cursor.parens = 0 && cursor.prev.any fun last =>
    last.kind = .rightBrace && cursor.current.pos.line > last.pos.line

namespace Parser

mutual

/-- Reads a parameter that is not among the names `seen`, and those after it up
to the closing parenthesis. -/
def param (seen : List Text) (cursor : Cursor) : Parsed 1 (List Text) cursor :=
  if cursor.current.lexeme ∈ seen then
    .complain cursor (.duplicateParameter cursor.current.lexeme)
  else
    (cursor.expect .identifier).andThen fun token next _ =>
      (moreParams (token.lexeme :: seen) next).map (token.lexeme :: ·)
termination_by cursor.left

/-- Reads the closing parenthesis of the parameters, or a comma and more of
them. -/
def moreParams (seen : List Text) (cursor : Cursor) : Parsed 1 (List Text) cursor :=
  if cursor.kind = .rightParen then
    (cursor.expect .rightParen).map fun _ => []
  else
    (cursor.expect .comma).andThen fun _ next _ => param seen next
termination_by cursor.left

end

/-- Reads parameters up to and including the closing parenthesis. -/
def params (cursor : Cursor) : Parsed 1 (List Text) cursor :=
  if cursor.kind = .rightParen then
    (cursor.expect .rightParen).map fun _ => []
  else
    param [] cursor

/-- Reads the semicolon after a statement.  It may be left out before the token
that closes the statements and after a closing brace. -/
def endStatement (closing : Kind) (cursor : Cursor) : Parsed 0 Unit cursor :=
  if cursor.kind = .semicolon then
    ((cursor.expect .semicolon).map fun _ => ()).relax
  else if cursor.kind = closing || cursor.follows .rightBrace then
    .pure () cursor
  else if cursor.kind = .endOfInput then
    .complain cursor (.missing closing cursor.current)
  else
    .complain cursor (.unclosedStatement cursor.current)

mutual

/-- Reads an expression whose operators lie above a level. -/
def expr (level : Level) (cursor : Cursor) : Parsed 1 Expr cursor :=
  (operand cursor).andThen fun left next _ => continuations level left next
termination_by 6 * cursor.left + 3

/-- Reads what follows an operand, as long as it lies above a level. -/
def continuations (level : Level) (left : Expr) (cursor : Cursor) :
    Parsed 0 Expr cursor :=
  match cursor.front with
  | .atEnd => .pure left cursor
  | .token token next shorter =>
    match Continuation.ofKind? token.kind with
    | none => .pure left cursor
    | some continuation =>
      if continuation.level ≤ level || cursor.endsLine then
        .pure left cursor
      else
        match continuation with
        | .arguments =>
          (((args next.enter).leave.andThen fun args after _ =>
            continuations level (.call left args) after).after shorter).relax
        | .operator op level' =>
          (((expr level' next).andThen fun right after _ =>
            continuations level (.binary left op right) after).after shorter).relax
termination_by 6 * cursor.left
decreasing_by
  all_goals
    try simp only [Cursor.left_enter] at *
    omega

/-- Reads an operand: an atom, or an operator before its operand. -/
def operand (cursor : Cursor) : Parsed 1 Expr cursor :=
  match cursor.front with
  | .atEnd => .complain cursor .missingExpression
  | .token token next shorter =>
    match token.kind with
    | .integer =>
      match token.lexeme.toInt64? with
      | some value => .done (.int token.pos value) next shorter
      | none => .complain cursor (.outOfRange token.lexeme)
    | .trueWord => .done (.bool token.pos true) next shorter
    | .falseWord => .done (.bool token.pos false) next shorter
    | .identifier => .done (.name token.pos token.lexeme) next shorter
    | .minus =>
      ((expr .sign next).map (.unary token.pos .negate)).after shorter
    | .bang =>
      ((expr .sign next).map (.unary token.pos .not)).after shorter
    | .leftParen =>
      ((expr .lowest next.enter).andThen fun value after _ =>
        (after.expect .rightParen).map fun _ => value).leave.after shorter
    | .fnWord => (function token.pos next).after shorter
    | .ifWord => (branch token.pos next).after shorter
    | .illegal => .complain cursor (.illegalCharacter token.lexeme)
    | _ => .complain cursor (.unexpected token)
termination_by 6 * cursor.left + 2

/-- Reads a function after its first word. -/
def function (pos : Position) (cursor : Cursor) : Parsed 1 Expr cursor :=
  (cursor.expect .leftParen).andThen fun _ next _ =>
    (params next).andThen fun params next _ =>
      (block next).map fun body => .function pos params body
termination_by 6 * cursor.left

/-- Reads a choice after its first word. -/
def branch (pos : Position) (cursor : Cursor) : Parsed 1 Expr cursor :=
  (expr .lowest cursor).andThen fun condition next _ =>
    (block next).andThen fun thenArm next _ =>
      (elseArm next).map fun elseArm => .branch pos condition thenArm elseArm
termination_by 6 * cursor.left + 4

/-- Reads the second arm of a choice, which may be absent and may be a choice
itself. -/
def elseArm (cursor : Cursor) : Parsed 0 (Option Block) cursor :=
  match cursor.front with
  | .atEnd => .pure none cursor
  | .token token next shorter =>
    if token.kind = .elseWord then
      match next.front with
      | .token token' next' shorter' =>
        if token'.kind = .ifWord then
          ((((branch token'.pos next').map fun nested => some [.expr nested]).after
            shorter').after shorter).relax
        else
          (((block next).map some).after shorter).relax
      | .atEnd => (((block next).map some).after shorter).relax
    else
      .pure none cursor
termination_by 6 * cursor.left

/-- Reads arguments up to and including the closing parenthesis. -/
def args (cursor : Cursor) : Parsed 1 (List Expr) cursor :=
  if cursor.kind = .rightParen then
    (cursor.expect .rightParen).map fun _ => []
  else
    arg cursor
termination_by 6 * cursor.left + 5

/-- Reads an argument and those after it. -/
def arg (cursor : Cursor) : Parsed 1 (List Expr) cursor :=
  (expr .lowest cursor).andThen fun first next _ =>
    (moreArgs next).map (first :: ·)
termination_by 6 * cursor.left + 4

/-- Reads the closing parenthesis of the arguments, or a comma and more of
them. -/
def moreArgs (cursor : Cursor) : Parsed 1 (List Expr) cursor :=
  if cursor.kind = .rightParen then
    (cursor.expect .rightParen).map fun _ => []
  else if cursor.kind = .comma || cursor.kind = .endOfInput then
    (cursor.expect .comma).andThen fun _ next _ => arg next
  else
    .complain cursor (.missing .rightParen cursor.current)
termination_by 6 * cursor.left

/-- Reads the statements between braces. -/
def block (cursor : Cursor) : Parsed 1 Block cursor :=
  (cursor.expect .leftBrace).andThen fun _ next _ =>
    ((statements (next.withParens 0)).withParens next.parens).since (Nat.le_refl _)
termination_by 6 * cursor.left

/-- Reads statements up to and including the closing brace. -/
def statements (cursor : Cursor) : Parsed 1 Block cursor :=
  have bound := cursor.left_skipSemicolons_le
  if cursor.skipSemicolons.kind = .rightBrace || cursor.skipSemicolons.kind = .endOfInput then
    ((cursor.skipSemicolons.expect .rightBrace).map fun _ => []).since bound
  else
    ((statement cursor.skipSemicolons).andThen fun first next _ =>
      (endStatement .rightBrace next).andThen fun _ next _ =>
        (statements next).map (first :: ·)).since bound
termination_by 6 * cursor.left + 5

/-- Reads a statement without what closes it.  A statement that starts with a
choice ends with it. -/
def statement (cursor : Cursor) : Parsed 1 Stmt cursor :=
  match cursor.front with
  | .atEnd => (expr .lowest cursor).map .expr
  | .token token next shorter =>
    match token.kind with
    | .returnWord => ((expr .lowest next).map (.result token.pos)).after shorter
    | .letWord =>
      ((next.expect .identifier).andThen fun name next _ =>
        (next.expect .assign).andThen fun _ next _ =>
          (expr .lowest next).map (.declare token.pos name.lexeme)).after shorter
    | .identifier =>
      match next.front with
      | .token mark next' shorter' =>
        if mark.kind = .assign then
          (((expr .lowest next').map (.assign token.pos token.lexeme)).after shorter').after
            shorter
        else
          (expr .lowest cursor).map .expr
      | .atEnd => (expr .lowest cursor).map .expr
    | .ifWord => ((branch token.pos next).map .expr).after shorter
    | _ => (expr .lowest cursor).map .expr
termination_by 6 * cursor.left + 4

end

/-- Reads a statement of the program with what closes it. -/
def closedStatement (cursor : Cursor) : Parsed 1 Stmt cursor :=
  (statement cursor).andThen fun stmt next _ =>
    (endStatement .endOfInput next).map fun _ => stmt

/-- The statements that could be read, and the syntax errors between them. -/
structure Result where
  program : Program
  errors : List SyntaxError

/-- Reads statements up to the end of the input. -/
def program (cursor : Cursor) : Result :=
  have := cursor.left_skipSemicolons_le
  if _ : cursor.skipSemicolons.left = 0 then
    ⟨[], []⟩
  else
    match closedStatement cursor.skipSemicolons with
    | .done stmt next _ =>
      let result := program next
      ⟨stmt :: result.program, result.errors⟩
    | .failed error stop _ =>
      have := stop.left_recover_le
      have := stop.left_recover_lt
      let result := program stop.recover
      ⟨result.program, error :: result.errors⟩
termination_by cursor.left

end Parser

/-- The program of a token list, and its syntax errors. -/
def Program.ofTokens (tokens : List Token) : Parser.Result :=
  Parser.program (.ofTokens tokens)

/-- The program of a source text, and its syntax errors. -/
def Program.ofText (source : Text) : Parser.Result :=
  ofTokens (Token.ofText source)

end Siren
