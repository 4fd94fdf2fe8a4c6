import Siren.Program.Parser

/-!
# The grammar of programs

The grammar is stated over token lists, without the end of the input, by rules
that say which tree a list of tokens stands for.  Expressions are layered by
level: a rule of a level takes its left operand from the same level and its
right operand from the next one, so operators of one level group to the left.

Two rules of layout are part of it.  Where no parenthesis of a group or of
arguments is open inside the innermost braces, an expression that ends in a
closing brace does not go on with an operator or a call on a later line, and
otherwise always goes on with one.  A statement that starts with a choice is
that choice alone.
-/

namespace Siren
namespace Grammar

/-- The operators between two operands, with their levels. -/
inductive Infix : Level → Kind → BinaryOp → Prop where
  | equal : Infix .equality .equal .equal
  | notEqual : Infix .equality .notEqual .notEqual
  | less : Infix .ordering .less .less
  | lessEqual : Infix .ordering .lessEqual .lessEqual
  | greater : Infix .ordering .greater .greater
  | greaterEqual : Infix .ordering .greaterEqual .greaterEqual
  | add : Infix .sum .plus .add
  | subtract : Infix .sum .minus .subtract
  | multiply : Infix .product .star .multiply
  | divide : Infix .product .slash .divide

/-- The operators before an operand. -/
inductive Sign : Kind → UnaryOp → Prop where
  | negate : Sign .minus .negate
  | not : Sign .bang .not

/-- Tokens of these kinds go on with an expression: operators between operands,
and the parenthesis of a call. -/
def GoesOn (kind : Kind) : Prop :=
  kind = .leftParen ∨ ∃ level op, Infix level kind op

/-- The tokens end in a closing brace. -/
def EndsInBrace (tokens : List Token) : Prop :=
  ∃ last ∈ tokens.getLast?, last.kind = .rightBrace

/-- The tokens end in a closing brace, and the next token is on a later line. -/
def BreaksLine (tokens : List Token) (next : Token) : Prop :=
  ∃ last ∈ tokens.getLast?, last.kind = .rightBrace ∧ last.pos.line < next.pos.line

/-- The tokens start with the first word of a choice. -/
def StartsChoice (tokens : List Token) : Prop :=
  ∃ first ∈ tokens.head?, first.kind = .ifWord

/-- A statement that ends in a closing brace ends before a token when it is a
choice, or when the token does not go on with it on the same line. -/
def EndsBefore (statement : List Token) (next : Token) : Prop :=
  StartsChoice statement ∨ ¬GoesOn next.kind ∨ BreaksLine statement next

/-- Names separated by commas. -/
inductive Parameters : List Token → List Text → Prop where
  | one {token : Token} (kind : token.kind = .identifier) :
      Parameters [token] [token.lexeme]
  | more {token comma : Token} {tokens : List Token} {names : List Text}
      (kind : token.kind = .identifier)
      (separated : comma.kind = .comma)
      (rest : Parameters tokens names) :
      Parameters (token :: comma :: tokens) (token.lexeme :: names)

/-- No names, or names separated by commas. -/
inductive ParameterList : List Token → List Text → Prop where
  | none : ParameterList [] []
  | some {tokens : List Token} {names : List Text} (listed : Parameters tokens names) :
      ParameterList tokens names

mutual

/-- Tokens that stand for an expression of a level.  An expression is `grouped`
when a parenthesis of a group or of arguments is open around it inside the
innermost braces. -/
inductive Expression : (grouped : Bool) → Level → List Token → Expr → Prop where
  | int {grouped : Bool} {token : Token} {value : Int64}
      (kind : token.kind = .integer)
      (inRange : token.lexeme.toInt64? = some value) :
      Expression grouped .call [token] (.int token.pos value)
  | true {grouped : Bool} {token : Token} (kind : token.kind = .trueWord) :
      Expression grouped .call [token] (.bool token.pos true)
  | false {grouped : Bool} {token : Token} (kind : token.kind = .falseWord) :
      Expression grouped .call [token] (.bool token.pos false)
  | name {grouped : Bool} {token : Token} (kind : token.kind = .identifier) :
      Expression grouped .call [token] (.name token.pos token.lexeme)
  | group {grouped : Bool} {opening closing : Token} {tokens : List Token} {expr : Expr}
      (opened : opening.kind = .leftParen)
      (inner : Expression .true .equality tokens expr)
      (closed : closing.kind = .rightParen) :
      Expression grouped .call (opening :: (tokens ++ [closing])) expr
  | function {grouped : Bool} {word opening closing : Token} {names : List Text}
      {params tokens : List Token} {body : Block}
      (kind : word.kind = .fnWord)
      (opened : opening.kind = .leftParen)
      (listed : ParameterList params names)
      (distinct : names.Nodup)
      (closed : closing.kind = .rightParen)
      (block : Braces tokens body) :
      Expression grouped .call (word :: opening :: (params ++ closing :: tokens))
        (.function word.pos names body)
  | choice {grouped : Bool} {tokens : List Token} {expr : Expr}
      (choice : Choice grouped tokens expr) :
      Expression grouped .call tokens expr
  | call {grouped : Bool} {opening closing : Token} {tokens arguments : List Token}
      {callee : Expr} {args : List Expr}
      (called : Expression grouped .call tokens callee)
      (opened : opening.kind = .leftParen)
      (sameLine : grouped = .false → ¬BreaksLine tokens opening)
      (listed : ArgumentList arguments args)
      (closed : closing.kind = .rightParen) :
      Expression grouped .call (tokens ++ opening :: (arguments ++ [closing]))
        (.call callee args)
  | sign {grouped : Bool} {token : Token} {op : UnaryOp} {tokens : List Token} {operand : Expr}
      (kind : Sign token.kind op)
      (inner : Expression grouped .sign tokens operand) :
      Expression grouped .sign (token :: tokens) (.unary token.pos op operand)
  | binary {grouped : Bool} {level : Level} {token : Token} {op : BinaryOp}
      {tokens tokens' : List Token} {left right : Expr}
      (first : Expression grouped level tokens left)
      (kind : Infix level token.kind op)
      (sameLine : grouped = .false → ¬BreaksLine tokens token)
      (second : Expression grouped (level + 1) tokens' right) :
      Expression grouped level (tokens ++ token :: tokens') (.binary left op right)
  | tighter {grouped : Bool} {level : Level} {tokens : List Token} {expr : Expr}
      (inner : Expression grouped (level + 1) tokens expr) :
      Expression grouped level tokens expr

/-- A condition with a block and perhaps a second arm. -/
inductive Choice : (grouped : Bool) → List Token → Expr → Prop where
  | choice {grouped : Bool} {word : Token} {tokens first second : List Token}
      {condition : Expr} {thenArm : Block} {elseArm : Option Block}
      (kind : word.kind = .ifWord)
      (test : Expression grouped .equality tokens condition)
      (block : Braces first thenArm)
      (otherwise : ElseArm grouped second elseArm) :
      Choice grouped (word :: (tokens ++ (first ++ second)))
        (.branch word.pos condition thenArm elseArm)

/-- The second arm of a choice: a block, or a choice that is the only expression
of a block. -/
inductive ElseArm : (grouped : Bool) → List Token → Option Block → Prop where
  | absent {grouped : Bool} : ElseArm grouped [] none
  | block {grouped : Bool} {word : Token} {tokens : List Token} {body : Block}
      (kind : word.kind = .elseWord)
      (block : Braces tokens body) :
      ElseArm grouped (word :: tokens) (some body)
  | chain {grouped : Bool} {word : Token} {tokens : List Token} {nested : Expr}
      (kind : word.kind = .elseWord)
      (choice : Choice grouped tokens nested) :
      ElseArm grouped (word :: tokens) (some [.expr nested])

/-- No expressions, or expressions separated by commas. -/
inductive ArgumentList : List Token → List Expr → Prop where
  | none : ArgumentList [] []
  | some {tokens : List Token} {args : List Expr} (listed : Arguments tokens args) :
      ArgumentList tokens args

/-- Expressions separated by commas. -/
inductive Arguments : List Token → List Expr → Prop where
  | one {tokens : List Token} {expr : Expr}
      (only : Expression .true .equality tokens expr) :
      Arguments tokens [expr]
  | more {comma : Token} {tokens tokens' : List Token} {expr : Expr} {args : List Expr}
      (first : Expression .true .equality tokens expr)
      (separated : comma.kind = .comma)
      (rest : Arguments tokens' args) :
      Arguments (tokens ++ comma :: tokens') (expr :: args)

/-- Statements between braces. -/
inductive Braces : List Token → Block → Prop where
  | block {opening closing : Token} {tokens : List Token} {block : Block}
      (opened : opening.kind = .leftBrace)
      (inner : Statements tokens block)
      (closed : closing.kind = .rightBrace) :
      Braces (opening :: (tokens ++ [closing])) block

/-- A statement without what closes it. -/
inductive Statement : List Token → Stmt → Prop where
  | result {word : Token} {tokens : List Token} {value : Expr}
      (kind : word.kind = .returnWord)
      (given : Expression .false .equality tokens value) :
      Statement (word :: tokens) (.result word.pos value)
  | declare {word name mark : Token} {tokens : List Token} {value : Expr}
      (kind : word.kind = .letWord)
      (named : name.kind = .identifier)
      (marked : mark.kind = .assign)
      (given : Expression .false .equality tokens value) :
      Statement (word :: name :: mark :: tokens) (.declare word.pos name.lexeme value)
  | assign {name mark : Token} {tokens : List Token} {value : Expr}
      (named : name.kind = .identifier)
      (marked : mark.kind = .assign)
      (given : Expression .false .equality tokens value) :
      Statement (name :: mark :: tokens) (.assign name.pos name.lexeme value)
  | choice {tokens : List Token} {value : Expr}
      (choice : Choice .false tokens value) :
      Statement tokens (.expr value)
  | expr {tokens : List Token} {value : Expr}
      (start : ¬StartsChoice tokens)
      (given : Expression .false .equality tokens value) :
      Statement tokens (.expr value)

/-- Statements with what closes them.  A semicolon may be left out after the
last statement and after a closing brace. -/
inductive Statements : List Token → List Stmt → Prop where
  | nil : Statements [] []
  | empty {semicolon : Token} {tokens : List Token} {stmts : List Stmt}
      (kind : semicolon.kind = .semicolon)
      (rest : Statements tokens stmts) :
      Statements (semicolon :: tokens) stmts
  | last {tokens : List Token} {stmt : Stmt}
      (first : Statement tokens stmt) :
      Statements tokens [stmt]
  | closed {semicolon : Token} {tokens tokens' : List Token} {stmt : Stmt}
      {stmts : List Stmt}
      (first : Statement tokens stmt)
      (kind : semicolon.kind = .semicolon)
      (rest : Statements tokens' stmts) :
      Statements (tokens ++ semicolon :: tokens') (stmt :: stmts)
  | adjacent {tokens tokens' : List Token} {stmt : Stmt} {stmts : List Stmt}
      (first : Statement tokens stmt)
      (brace : EndsInBrace tokens)
      (ends : ∀ next ∈ tokens'.head?, EndsBefore tokens next)
      (rest : Statements tokens' stmts) :
      Statements (tokens ++ tokens') (stmt :: stmts)

end

/-- An expression of a level is one of every lower level. -/
theorem Expression.weaken
    {grouped : Bool}
    {level lower : Level}
    {tokens : List Token}
    {expr : Expr}
    (derived : Expression grouped level tokens expr)
    (below : lower ≤ level) :
    Expression grouped lower tokens expr := by
  induction below with
  | refl => exact derived
  | step _ inductionHypothesis => exact inductionHypothesis (.tighter derived)

/-- The kinds of token that can start an expression. -/
def StartsExpression (kind : Kind) : Prop :=
  kind ∈ [Kind.integer, .trueWord, .falseWord, .identifier, .leftParen, .fnWord, .ifWord,
    .minus, .bang]

theorem Sign.starts {kind : Kind} {op : UnaryOp} (sign : Sign kind op) :
    StartsExpression kind := by
  cases sign <;> simp [StartsExpression]

/-- Every expression starts with a token that can start one. -/
theorem Expression.head
    {grouped : Bool}
    {level : Level}
    {tokens : List Token}
    {expr : Expr}
    (derived : Expression grouped level tokens expr) :
    ∃ first rest, tokens = first :: rest ∧ StartsExpression first.kind := by
  match derived with
  | .int kind _ | .true kind | .false kind | .name kind =>
      exact ⟨_, _, rfl, by simp [StartsExpression, kind]⟩
  | .group kind _ _ => exact ⟨_, _, rfl, by simp [StartsExpression, kind]⟩
  | .function kind _ _ _ _ _ => exact ⟨_, _, rfl, by simp [StartsExpression, kind]⟩
  | .choice (.choice kind _ _ _) => exact ⟨_, _, rfl, by simp [StartsExpression, kind]⟩
  | .sign kind _ => exact ⟨_, _, rfl, kind.starts⟩
  | .call called _ _ _ _ =>
      obtain ⟨first, rest, rfl, starts⟩ := called.head
      exact ⟨first, _, rfl, starts⟩
  | .binary left _ _ _ =>
      obtain ⟨first, rest, rfl, starts⟩ := left.head
      exact ⟨first, _, rfl, starts⟩
  | .tighter inner => exact inner.head
termination_by structural derived

theorem Expression.ne_nil
    {grouped : Bool}
    {level : Level}
    {tokens : List Token}
    {expr : Expr}
    (derived : Expression grouped level tokens expr) :
    tokens ≠ [] := by
  obtain ⟨first, rest, rfl, _⟩ := derived.head
  exact List.cons_ne_nil first rest

/-- The kinds of token that can start a statement. -/
def StartsStatement (kind : Kind) : Prop :=
  StartsExpression kind ∨ kind = .returnWord ∨ kind = .letWord

theorem Statement.head
    {tokens : List Token}
    {stmt : Stmt}
    (derived : Statement tokens stmt) :
    ∃ first rest, tokens = first :: rest ∧ StartsStatement first.kind := by
  cases derived with
  | result kind _ => exact ⟨_, _, rfl, .inr (.inl kind)⟩
  | declare kind _ _ _ => exact ⟨_, _, rfl, .inr (.inr kind)⟩
  | assign kind _ _ => exact ⟨_, _, rfl, .inl (by simp [StartsExpression, kind])⟩
  | choice choice =>
      obtain ⟨first, rest, equal, starts⟩ :=
        (Expression.choice choice : Expression .false .call _ _).head
      exact ⟨first, rest, equal, .inl starts⟩
  | expr _ given =>
      obtain ⟨first, rest, equal, starts⟩ := given.head
      exact ⟨first, rest, equal, .inl starts⟩

theorem Statement.ne_nil
    {tokens : List Token}
    {stmt : Stmt}
    (derived : Statement tokens stmt) :
    tokens ≠ [] := by
  obtain ⟨first, rest, rfl, _⟩ := derived.head
  exact List.cons_ne_nil first rest

/-- Statements start with a semicolon or with a token that can start one. -/
theorem Statements.head
    {tokens : List Token}
    {stmts : List Stmt}
    (derived : Statements tokens stmts)
    {next : Token}
    (heads : next ∈ tokens.head?) :
    next.kind = .semicolon ∨ StartsStatement next.kind := by
  have ofStatement {start more : List Token} {stmt : Stmt} (statement : Statement start stmt)
      (heads : next ∈ (start ++ more).head?) : StartsStatement next.kind := by
    obtain ⟨token, rest, rfl, starts⟩ := statement.head
    obtain rfl : token = next := by simpa using heads
    exact starts
  cases derived with
  | nil => simp at heads
  | empty kind _ =>
      obtain rfl := Option.some.inj heads
      exact .inl kind
  | last statement =>
      rw [← List.append_nil tokens] at heads
      exact .inr (ofStatement statement heads)
  | closed statement _ _ => exact .inr (ofStatement statement heads)
  | adjacent statement _ _ _ => exact .inr (ofStatement statement heads)

/-- No tokens stand for no statements only. -/
theorem Statements.eq_nil
    {stmts : List Stmt}
    (derived : Statements [] stmts) :
    stmts = [] := by
  generalize equal : ([] : List Token) = tokens at derived
  cases derived with
  | nil => rfl
  | empty _ _ => cases equal
  | last statement => exact absurd equal.symm statement.ne_nil
  | closed statement _ _ => simp at equal
  | adjacent statement _ _ _ =>
      exact absurd (List.nil_eq_append_iff.mp equal).1 statement.ne_nil

end Grammar
end Siren
