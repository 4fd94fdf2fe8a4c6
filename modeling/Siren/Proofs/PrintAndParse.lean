import Siren.Proofs.WordByWord

/-!
# Printing and parsing

The printed form of a statement can be parsed again when all statements in it are
declarations and returns, the kinds that are printed as they are written.  The result
is the statement itself, up to positions and up to the one place where printing and
reading differ: a minus sign is printed directly before its operand, and is read as
part of a number there.

Each printed part is read as words that stand for what is printed, whatever follows,
by induction over the syntax.
-/

namespace Siren

/-! ## Folding minus signs into numbers -/

namespace Expr

/-- Whether an expression is a chain of calls, perhaps of none, on a literal that is
not negative. -/
def isNaturalChain : Expr → Bool
  | .int _ value => 0 ≤ value.toInt
  | .call callee _ => callee.isNaturalChain
  | _ => false

/-- The chain of calls on the literal with the other sign. -/
def negateHead : Expr → Expr
  | .int pos value => .int pos (-value)
  | .call callee args => .call callee.negateHead args
  | other => other

end Expr

mutual

/-- The expression with every minus sign before a chain of calls on a literal that is
not negative folded into the literal. -/
def Expr.fold : Expr → Expr
  | .name pos name => .name pos name
  | .int pos value => .int pos value
  | .bool pos value => .bool pos value
  | .unary pos op operand =>
    if op = .negate ∧ operand.isNaturalChain then
      operand.fold.negateHead
    else
      .unary pos op operand.fold
  | .binary left op right => .binary left.fold op right.fold
  | .function pos params body => .function pos params (Block.fold body)
  | .call callee args => .call callee.fold (Expr.foldAll args)
  | .branch pos condition thenArm elseArm =>
    .branch pos condition.fold (Block.fold thenArm) (Block.foldElse elseArm)
  | .missing => .missing
termination_by structural expr => expr

/-- Expressions with their minus signs folded. -/
def Expr.foldAll : List Expr → List Expr
  | [] => []
  | expr :: exprs => expr.fold :: Expr.foldAll exprs
termination_by structural exprs => exprs

/-- A statement with its minus signs folded. -/
def Stmt.fold : Stmt → Stmt
  | .declare pos name value => .declare pos name value.fold
  | .assign pos name value => .assign pos name value.fold
  | .expr value => .expr value.fold
  | .result pos value => .result pos value.fold
  | .missing => .missing
termination_by structural stmt => stmt

/-- Statements with their minus signs folded. -/
def Block.fold : List Stmt → List Stmt
  | [] => []
  | stmt :: stmts => stmt.fold :: Block.fold stmts
termination_by structural stmts => stmts

/-- The second arm of a choice with its minus signs folded. -/
def Block.foldElse : Option (List Stmt) → Option (List Stmt)
  | none => none
  | some block => some (Block.fold block)
termination_by structural arm => arm

end

/-! ## Statements that are printed as they are written -/

mutual

/-- All statements inside an expression are declarations and returns. -/
def Expr.Reparsable : Expr → Prop
  | .name _ _ => True
  | .int _ _ => True
  | .bool _ _ => True
  | .unary _ _ operand => operand.Reparsable
  | .binary left _ right => left.Reparsable ∧ right.Reparsable
  | .function _ _ body => Block.Reparsable body
  | .call callee args => callee.Reparsable ∧ Expr.AllReparsable args
  | .branch _ condition thenArm elseArm =>
    condition.Reparsable ∧ Block.Reparsable thenArm ∧ Block.ElseReparsable elseArm
  | .missing => True
termination_by structural expr => expr

/-- All statements inside some expressions are declarations and returns. -/
def Expr.AllReparsable : List Expr → Prop
  | [] => True
  | expr :: exprs => expr.Reparsable ∧ Expr.AllReparsable exprs
termination_by structural exprs => exprs

/-- A declaration or a return, and so are all statements inside it. -/
def Stmt.Reparsable : Stmt → Prop
  | .declare _ _ value => value.Reparsable
  | .result _ value => value.Reparsable
  | .assign _ _ _ | .expr _ | .missing => False
termination_by structural stmt => stmt

/-- Declarations and returns, and so are all statements inside them. -/
def Block.Reparsable : List Stmt → Prop
  | [] => True
  | stmt :: stmts => stmt.Reparsable ∧ Block.Reparsable stmts
termination_by structural stmts => stmts

/-- All statements of the second arm of a choice are declarations and returns. -/
def Block.ElseReparsable : Option (List Stmt) → Prop
  | none => True
  | some block => Block.Reparsable block
termination_by structural arm => arm

end

/-! ## Reading printed parts -/

open Lexeme (Delimits)
open Lexer (Yields)

/-- Where an operand must stand, and before anything that does not go on with it, the
text is read as words that stand for the expression. -/
def Expr.ReadFrom (expr : Expr) (text : Text) : Prop :=
  ∃ words, (∀ last rest, last.expectsOperand = true → Delimits rest →
      Yields last text words rest) ∧
    ∀ grouped, Grammar.Expression grouped .call (Word.tokens words) expr

/-- The same for the arguments of a call. -/
def Expr.AllReadFrom (exprs : List Expr) (text : Text) : Prop :=
  ∃ words, (∀ last rest, last.expectsOperand = true → Delimits rest →
      Yields last text words rest) ∧
    Grammar.ArgumentList (Word.tokens words) exprs

/-- Before anything that does not go on with it, the text is read as words that stand
for the statement. -/
def Stmt.ReadFrom (stmt : Stmt) (text : Text) : Prop :=
  ∃ words, (∀ last rest, Delimits rest → Yields last text words rest) ∧
    Grammar.Statement (Word.tokens words) stmt

/-- The text is read as words that stand for the statements. -/
def Block.ReadFrom (stmts : List Stmt) (text : Text) : Prop :=
  ∃ words, (∀ last rest, Yields last text words rest) ∧
    Grammar.Statements (Word.tokens words) stmts

/-- The text is read as words that stand for the second arm of a choice. -/
def Block.ElseReadFrom (arm : Option (List Stmt)) (text : Text) : Prop :=
  ∃ words, (∀ last rest, Yields last text words rest) ∧
    ∀ grouped, Grammar.ElseArm grouped (Word.tokens words) arm

/-- A text in parentheses is read as a group. -/
theorem Expr.ReadFrom.group
    {text : Text}
    {words : List Word}
    {expr : Expr}
    (yields : ∀ rest, Delimits rest → Yields .leftParen text words rest)
    (derived : Grammar.Expression .true .equality (Word.tokens words) expr) :
    expr.ReadFrom (Kind.leftParen.name ++ text ++ Kind.rightParen.name) := by
  refine ⟨[Kind.leftParen.word] ++ words ++ [Kind.rightParen.word], ?_, fun grouped => ?_⟩
  · intro last rest _ _
    exact ((Yields.delimiter rfl _).append (yields _ (.symbol (by decide) _))).append
      (.delimiter rfl rest)
  · simpa using Grammar.Expression.group rfl derived rfl

theorem Expr.ReadFrom.parenthesised
    {expr : Expr}
    {text : Text}
    (inner : expr.ReadFrom text) :
    expr.ReadFrom (Kind.leftParen.name ++ text ++ Kind.rightParen.name) := by
  obtain ⟨words, yields, derived⟩ := inner
  exact .group (fun rest delimits => yields _ rest rfl delimits)
    ((derived true).weaken (by decide))

/-- Known operators are written as symbols between their operands. -/
theorem BinaryOp.exists_infix {op : BinaryOp} (known : op.isKnown = true) :
    ∃ level kind, Grammar.Infix level kind op ∧ op.text = kind.name ∧
      kind.category = .operator ∧ kind.expectsOperand = true := by
  cases op with
  | add => exact ⟨_, _, .add, rfl, rfl, rfl⟩
  | subtract => exact ⟨_, _, .subtract, rfl, rfl, rfl⟩
  | multiply => exact ⟨_, _, .multiply, rfl, rfl, rfl⟩
  | divide => exact ⟨_, _, .divide, rfl, rfl, rfl⟩
  | equal => exact ⟨_, _, .equal, rfl, rfl, rfl⟩
  | notEqual => exact ⟨_, _, .notEqual, rfl, rfl, rfl⟩
  | less => exact ⟨_, _, .less, rfl, rfl, rfl⟩
  | lessEqual => exact ⟨_, _, .lessEqual, rfl, rfl, rfl⟩
  | greater => exact ⟨_, _, .greater, rfl, rfl, rfl⟩
  | greaterEqual => exact ⟨_, _, .greaterEqual, rfl, rfl, rfl⟩
  | other code => cases known

theorem Grammar.Infix.levels
    {level : Level}
    {kind : Kind}
    {op : BinaryOp}
    (listed : Grammar.Infix level kind op) :
    .equality ≤ level ∧ level + 1 ≤ .call := by
  cases listed <;> decide

/-- Two operands in parentheses with an operator between them. -/
theorem Expr.ReadFrom.binary
    {left right : Expr}
    {text text' : Text}
    (first : left.ReadFrom text)
    (second : right.ReadFrom text')
    {op : BinaryOp}
    (known : op.isKnown = true) :
    (Expr.binary left op right).ReadFrom
      ("(" ++ text ++ " " ++ op.text ++ " " ++ text' ++ ")") := by
  obtain ⟨words, yields, derived⟩ := first
  obtain ⟨words', yields', derived'⟩ := second
  obtain ⟨level, kind, listed, spelled, isOperator, operand⟩ := BinaryOp.exists_infix known
  obtain ⟨lower, upper⟩ := listed.levels
  have inner (rest : Text) (delimits : Delimits rest) :
      Yields .leftParen (text ++ [Text.space] ++ kind.name ++ [Text.space] ++ text')
        (words ++ [] ++ [kind.word] ++ [] ++ words') rest :=
    ((((yields _ _ rfl (.cons rfl _)).append (.space _ _)).append
      (.operator isOperator _)).append (.space _ _)).append
        (yields' _ _ (by simpa using operand) delimits)
  have expr : Grammar.Expression .true level
      (Word.tokens words ++ ⟨kind, kind.name, .nowhere⟩ :: Word.tokens words')
      (.binary left op right) :=
    .binary ((derived true).weaken (Nat.le_of_succ_le upper)) listed nofun
      ((derived' true).weaken upper)
  have group := Expr.ReadFrom.group inner (by simpa using expr.weaken lower)
  have pieces : ("(" ++ text ++ " " ++ op.text ++ " " ++ text' ++ ")" : Text) =
      Kind.leftParen.name ++ (text ++ [Text.space] ++ kind.name ++ [Text.space] ++ text') ++
        Kind.rightParen.name := by
    simp only [spelled, List.append_assoc]
    rfl
  rw [pieces]
  exact group

/-- A sign directly before an operand that does not go on with it, in parentheses. -/
theorem Expr.ReadFrom.sign
    {operand : Expr}
    {text : Text}
    (inner : operand.ReadFrom text)
    {kind : Kind}
    {op : UnaryOp}
    (sign : Grammar.Sign kind op)
    (spelled : op.text = kind.name)
    (alone : ∀ rest, Yields .leftParen kind.name [kind.word] (text ++ rest)) :
    (Expr.unary .nowhere op operand).ReadFrom ("(" ++ op.text ++ text ++ ")") := by
  obtain ⟨words, yields, derived⟩ := inner
  have expectsOperand : kind.expectsOperand = true := by
    cases sign <;> rfl
  have inner (rest : Text) (delimits : Delimits rest) :
      Yields .leftParen (kind.name ++ text) ([kind.word] ++ words) rest :=
    (alone rest).append (yields _ _ expectsOperand delimits)
  have expr : Grammar.Expression .true .sign
      (⟨kind, kind.name, .nowhere⟩ :: Word.tokens words) (.unary .nowhere op operand) :=
    .sign sign ((derived true).weaken (by decide))
  have group := Expr.ReadFrom.group inner (by simpa using expr.weaken (by decide))
  rw [spelled, List.append_assoc (Text.ofString "(") kind.name text]
  exact group

/-- A call with its arguments in parentheses. -/
theorem Expr.ReadFrom.call
    {callee : Expr}
    {args : List Expr}
    {text text' : Text}
    (called : callee.ReadFrom text)
    (given : Expr.AllReadFrom args text') :
    (Expr.call callee args).ReadFrom (text ++ "(" ++ text' ++ ")") := by
  obtain ⟨words, yields, derived⟩ := called
  obtain ⟨words', yields', listed⟩ := given
  refine ⟨words ++ [Kind.leftParen.word] ++ words' ++ [Kind.rightParen.word], ?_,
    fun grouped => ?_⟩
  · intro last rest operand _
    show Yields last (text ++ Kind.leftParen.name ++ text' ++ Kind.rightParen.name) _ rest
    exact (((yields _ _ operand (.symbol (by decide) _)).append (.delimiter rfl _)).append
      (yields' _ _ (by simp [Kind.expectsOperand]) (.symbol (by decide) _))).append
        (.delimiter rfl rest)
  · simpa using Grammar.Expression.call (derived grouped) rfl
      (fun _ => Word.not_breaksLine words .leftParen Kind.leftParen.name) listed rfl

namespace Grammar

theorem ArgumentList.arguments
    {tokens : List Token}
    {arg : Expr}
    {args : List Expr}
    (listed : ArgumentList tokens (arg :: args)) :
    Arguments tokens (arg :: args) := by
  cases listed with
  | some listed => exact listed

theorem ParameterList.parameters
    {tokens : List Token}
    {name : Text}
    {names : List Text}
    (listed : ParameterList tokens (name :: names)) :
    Parameters tokens (name :: names) := by
  cases listed with
  | some listed => exact listed

end Grammar

namespace Expr.AllReadFrom

theorem nil : Expr.AllReadFrom [] [] :=
  ⟨[], fun last rest _ _ => .nil last rest, .none⟩

theorem single
    {expr : Expr}
    {text : Text}
    (only : expr.ReadFrom text) :
    Expr.AllReadFrom [expr] text := by
  obtain ⟨words, yields, derived⟩ := only
  exact ⟨words, yields, .some (.one ((derived true).weaken (by decide)))⟩

theorem cons
    {expr next : Expr}
    {exprs : List Expr}
    {text text' : Text}
    (first : expr.ReadFrom text)
    (others : Expr.AllReadFrom (next :: exprs) text') :
    Expr.AllReadFrom (expr :: next :: exprs) (text ++ ", " ++ text') := by
  obtain ⟨words, yields, derived⟩ := first
  obtain ⟨words', yields', listed⟩ := others
  refine ⟨words ++ [Kind.comma.word] ++ [] ++ words', ?_, ?_⟩
  · intro last rest operand delimits
    have pieces : text ++ ", " ++ text' = text ++ Kind.comma.name ++ [Text.space] ++ text' := by
      simp only [List.append_assoc]
      rfl
    rw [pieces]
    exact (((yields _ _ operand (.symbol (by decide) _)).append (.delimiter rfl _)).append
      (.space _ _)).append (yields' _ _ (by simp [Kind.expectsOperand]) delimits)
  · have more : Grammar.Arguments
        (Word.tokens words ++ ⟨.comma, Kind.comma.name, .nowhere⟩ :: Word.tokens words')
        (expr :: next :: exprs) :=
      .more ((derived true).weaken (by decide)) rfl listed.arguments
    simpa using Grammar.ArgumentList.some more

end Expr.AllReadFrom

/-- Parameters are read as they are printed. -/
theorem Function.params_readFrom
    {params : List Text}
    (named : ∀ name ∈ params, Lexeme.isName name = true) :
    ∃ words, (∀ last rest, Delimits rest → Yields last (Text.join ", " params) words rest) ∧
      Grammar.ParameterList (Word.tokens words) params := by
  induction params with
  | nil => exact ⟨[], fun last rest _ => .nil last rest, .none⟩
  | cons name params inductionHypothesis =>
      rw [List.forall_mem_cons] at named
      obtain ⟨words, yields, listed⟩ := inductionHypothesis named.2
      cases params with
      | nil =>
          exact ⟨[(.identifier, name)], fun last rest delimits => .name named.1 delimits,
            .some (.one rfl)⟩
      | cons next params =>
          refine ⟨[(.identifier, name)] ++ [Kind.comma.word] ++ [] ++ words, ?_, ?_⟩
          · intro last rest delimits
            have pieces : Text.join ", " (name :: next :: params) =
                name ++ Kind.comma.name ++ [Text.space] ++ Text.join ", " (next :: params) := by
              simp only [Text.join, List.append_assoc]
              rfl
            rw [pieces]
            exact (((Yields.name named.1 (.symbol (by decide) _)).append
              (.delimiter rfl _)).append (.space _ _)).append (yields _ _ delimits)
          · have more : Grammar.Parameters (⟨.identifier, name, .nowhere⟩ ::
                ⟨.comma, Kind.comma.name, .nowhere⟩ :: Word.tokens words)
                (name :: next :: params) :=
              .more rfl rfl listed.parameters
            simpa using Grammar.ParameterList.some more

/-- Statements between braces. -/
theorem Block.ReadFrom.braces
    {stmts : List Stmt}
    {text : Text}
    (inner : Block.ReadFrom stmts text) :
    ∃ words, (∀ last rest, Yields last (Block.braces text) words rest) ∧
      Grammar.Braces (Word.tokens words) stmts := by
  obtain ⟨words, yields, derived⟩ := inner
  refine ⟨[Kind.leftBrace.word] ++ [] ++ words ++ [Kind.rightBrace.word], ?_, ?_⟩
  · intro last rest
    show Yields last (Kind.leftBrace.name ++ [Text.space] ++ text ++ Kind.rightBrace.name) _ rest
    exact (((Yields.delimiter rfl _).append (.space _ _)).append (yields _ _)).append
      (.delimiter rfl rest)
  · simpa using Grammar.Braces.block rfl derived rfl

/-- A function with its parameters and its body. -/
theorem Expr.ReadFrom.function
    {params : List Text}
    (distinct : params.Nodup)
    (named : ∀ name ∈ params, Lexeme.isName name = true)
    {body : List Stmt}
    {text : Text}
    (inner : Block.ReadFrom body text) :
    (Expr.function .nowhere params body).ReadFrom
      ("fn(" ++ Text.join ", " params ++ ") " ++ Block.braces text) := by
  obtain ⟨words, yields, listed⟩ := Function.params_readFrom named
  obtain ⟨words', yields', block⟩ := inner.braces
  have pieces : ("fn(" ++ Text.join ", " params ++ ") " ++ Block.braces text : Text) =
      Kind.fnWord.name ++ Kind.leftParen.name ++ Text.join ", " params ++
        Kind.rightParen.name ++ [Text.space] ++ Block.braces text := by
    simp only [List.append_assoc]
    rfl
  rw [pieces]
  refine ⟨[Kind.fnWord.word] ++ [Kind.leftParen.word] ++ words ++ [Kind.rightParen.word] ++ [] ++
    words', fun last rest _ _ => ?_, fun grouped => ?_⟩
  · exact (((((Yields.keyword rfl (.symbol (by decide) _)).append (.delimiter rfl _)).append
      (yields _ _ (.symbol (by decide) _))).append (.delimiter rfl _)).append (.space _ _)).append
        (yields' _ _)
  · have function : Grammar.Expression grouped .call
        (⟨.fnWord, Kind.fnWord.name, .nowhere⟩ :: ⟨.leftParen, Kind.leftParen.name, .nowhere⟩ ::
          (Word.tokens words ++ ⟨.rightParen, Kind.rightParen.name, .nowhere⟩ ::
            Word.tokens words'))
        (.function .nowhere params body) :=
      .function rfl rfl listed distinct rfl block
    simpa using function

/-- The second arm of a choice that is a block. -/
theorem Block.ReadFrom.elseArm
    {body : List Stmt}
    {text : Text}
    (inner : Block.ReadFrom body text) :
    Block.ElseReadFrom (some body) (" else " ++ Block.braces text) := by
  obtain ⟨words, yields, block⟩ := inner.braces
  refine ⟨[] ++ [Kind.elseWord.word] ++ [] ++ words, fun last rest => ?_, fun grouped => ?_⟩
  · have pieces : (" else " ++ Block.braces text : Text) =
        [Text.space] ++ Kind.elseWord.name ++ [Text.space] ++ Block.braces text := by
      simp only [List.append_assoc]
      rfl
    rw [pieces]
    exact (((Yields.space _ _).append (.keyword rfl (.cons rfl _))).append (.space _ _)).append
      (yields _ _)
  · have arm : Grammar.ElseArm grouped
        (⟨.elseWord, Kind.elseWord.name, .nowhere⟩ :: Word.tokens words) (some body) :=
      .block rfl block
    simpa using arm

/-- A condition with a block and perhaps a second arm. -/
theorem Expr.ReadFrom.branch
    {condition : Expr}
    {thenArm : List Stmt}
    {elseArm : Option (List Stmt)}
    {text text' text'' : Text}
    (test : condition.ReadFrom text)
    (first : Block.ReadFrom thenArm text')
    (second : Block.ElseReadFrom elseArm text'') :
    (Expr.branch .nowhere condition thenArm elseArm).ReadFrom
      ("if " ++ text ++ " " ++ Block.braces text' ++ text'') := by
  obtain ⟨words, yields, derived⟩ := test
  obtain ⟨words', yields', block⟩ := first.braces
  obtain ⟨words'', yields'', arm⟩ := second
  have pieces : ("if " ++ text ++ " " ++ Block.braces text' ++ text'' : Text) =
      Kind.ifWord.name ++ [Text.space] ++ text ++ [Text.space] ++ Block.braces text' ++
        text'' := by
    simp only [List.append_assoc]
    rfl
  rw [pieces]
  refine ⟨[Kind.ifWord.word] ++ [] ++ words ++ [] ++ words' ++ words'', fun last rest _ _ => ?_,
    fun grouped => ?_⟩
  · exact (((((Yields.keyword rfl (.cons rfl _)).append (.space _ _)).append
      (yields _ _ rfl (.cons rfl _))).append (.space _ _)).append (yields' _ _)).append
        (yields'' _ _)
  · have choice : Grammar.Choice grouped (⟨.ifWord, Kind.ifWord.name, .nowhere⟩ ::
        (Word.tokens words ++ (Word.tokens words' ++ Word.tokens words'')))
        (.branch .nowhere condition thenArm elseArm) :=
      .choice rfl ((derived grouped).weaken (by decide)) block (arm grouped)
    simpa using Grammar.Expression.choice choice

/-- The declaration of a name. -/
theorem Expr.ReadFrom.declare
    {value : Expr}
    {text : Text}
    (given : value.ReadFrom text)
    {name : Text}
    (named : Lexeme.isName name = true) :
    (Stmt.declare .nowhere name value).ReadFrom ("let " ++ name ++ " = " ++ text) := by
  obtain ⟨words, yields, derived⟩ := given
  have pieces : ("let " ++ name ++ " = " ++ text : Text) =
      Kind.letWord.name ++ [Text.space] ++ name ++ [Text.space] ++ Kind.assign.name ++
        [Text.space] ++ text := by
    simp only [List.append_assoc]
    rfl
  rw [pieces]
  refine ⟨[Kind.letWord.word] ++ [] ++ [(.identifier, name)] ++ [] ++ [Kind.assign.word] ++ [] ++
    words, fun last rest delimits => ?_, ?_⟩
  · exact ((((((Yields.keyword rfl (.cons rfl _)).append (.space _ _)).append
      (.name named (.cons rfl _))).append (.space _ _)).append (.operator rfl _)).append
        (.space _ _)).append (yields _ _ rfl delimits)
  · have declare : Grammar.Statement (⟨.letWord, Kind.letWord.name, .nowhere⟩ ::
        ⟨.identifier, name, .nowhere⟩ :: ⟨.assign, Kind.assign.name, .nowhere⟩ ::
          Word.tokens words) (.declare .nowhere name value) :=
      .declare rfl rfl rfl ((derived false).weaken (by decide))
    simpa using declare

/-- A return with its result. -/
theorem Expr.ReadFrom.result
    {value : Expr}
    {text : Text}
    (given : value.ReadFrom text) :
    (Stmt.result .nowhere value).ReadFrom ("return " ++ text) := by
  obtain ⟨words, yields, derived⟩ := given
  refine ⟨[Kind.returnWord.word] ++ [] ++ words, fun last rest delimits => ?_, ?_⟩
  · show Yields last (Kind.returnWord.name ++ [Text.space] ++ text) _ rest
    exact ((Yields.keyword rfl (.cons rfl _)).append (.space _ _)).append
      (yields _ _ rfl delimits)
  · have result : Grammar.Statement
        (⟨.returnWord, Kind.returnWord.name, .nowhere⟩ :: Word.tokens words)
        (.result .nowhere value) :=
      .result rfl ((derived false).weaken (by decide))
    simpa using result

namespace Block.ReadFrom

theorem nil : Block.ReadFrom [] [] :=
  ⟨[], .nil, .nil⟩

/-- A statement that a semicolon closes, and others. -/
theorem cons
    {stmt : Stmt}
    {stmts : List Stmt}
    {text text' : Text}
    (first : stmt.ReadFrom text)
    (others : Block.ReadFrom stmts text') :
    Block.ReadFrom (stmt :: stmts) (text ++ "; " ++ text') := by
  obtain ⟨words, yields, derived⟩ := first
  obtain ⟨words', yields', derived'⟩ := others
  have pieces : text ++ "; " ++ text' =
      text ++ Kind.semicolon.name ++ [Text.space] ++ text' := by
    simp only [List.append_assoc]
    rfl
  rw [pieces]
  refine ⟨words ++ [Kind.semicolon.word] ++ [] ++ words', fun last rest => ?_, ?_⟩
  · exact (((yields _ _ (.symbol (by decide) _)).append (.delimiter rfl _)).append
      (.space _ _)).append (yields' _ _)
  · have closed : Grammar.Statements
        (Word.tokens words ++ ⟨.semicolon, Kind.semicolon.name, .nowhere⟩ :: Word.tokens words')
        (stmt :: stmts) :=
      .closed derived rfl derived'
    simpa using closed

end Block.ReadFrom

/-! ## Printed forms -/

/-- The printed form of an expression starts with a digit only if it is a chain of calls
on a literal, and never with an equals sign. -/
theorem Expr.exists_text_eq_cons (expr : Expr) (formed : expr.WellFormed) :
    ∃ first more, expr.text = first :: more ∧ first ≠ 61 ∧
      (Text.isDigit first = true → expr.isNaturalChain = true) := by
  cases expr with
  | name _ name =>
      cases name with
      | nil => cases formed
      | cons first others =>
          simp only [Expr.WellFormed, Lexeme.isName, Bool.and_eq_true] at formed
          have start := formed.1.1
          refine ⟨first, others, rfl, ?_, fun digit => ?_⟩
          · rintro rfl
            cases start
          · rw [Lexeme.isDigit_of_isWordStart start] at digit
            cases digit
  | int _ value =>
      rw [Expr.text, Expr.isNaturalChain]
      cases value.toInt with
      | ofNat magnitude =>
          obtain ⟨first, others, equal, digit, -⟩ := Text.exists_ofNat_eq_cons magnitude
          refine ⟨first, others, equal, ?_, fun _ => rfl⟩
          rintro rfl
          cases digit
      | negSucc less => exact ⟨45, _, rfl, by decide, (absurd · (by decide))⟩
  | bool _ value =>
      cases value with
      | true => exact ⟨116, _, rfl, by decide, (absurd · (by decide))⟩
      | false => exact ⟨102, _, rfl, by decide, (absurd · (by decide))⟩
  | unary _ op operand => exact ⟨40, _, rfl, by decide, (absurd · (by decide))⟩
  | binary left op right => exact ⟨40, _, rfl, by decide, (absurd · (by decide))⟩
  | function _ params body => exact ⟨102, _, rfl, by decide, (absurd · (by decide))⟩
  | branch _ condition thenArm elseArm => exact ⟨105, _, rfl, by decide, (absurd · (by decide))⟩
  | call callee args =>
      obtain ⟨first, more, equal, other, natural⟩ := callee.exists_text_eq_cons formed.1
      rw [Expr.text, equal]
      exact ⟨first, _, rfl, other, natural⟩
  | missing => exact formed.elim
termination_by structural expr

/-- A minus sign stands alone before anything but a chain of calls on a literal. -/
theorem Expr.yields_minus
    {expr : Expr}
    (formed : expr.WellFormed)
    (other : expr.isNaturalChain ≠ true)
    (last : Kind)
    (rest : Text) :
    Yields last Kind.minus.name [Kind.minus.word] (expr.text ++ rest) := by
  obtain ⟨first, more, equal, -, natural⟩ := expr.exists_text_eq_cons formed
  refine .minus fun byte heads => ?_
  rw [equal] at heads
  obtain rfl : first = byte := Option.some.inj heads
  exact Bool.eq_false_iff.mpr (mt natural other)

theorem Expr.yields_bang
    {expr : Expr}
    (formed : expr.WellFormed)
    (last : Kind)
    (rest : Text) :
    Yields last Kind.bang.name [Kind.bang.word] (expr.text ++ rest) := by
  obtain ⟨first, more, equal, other, -⟩ := expr.exists_text_eq_cons formed
  refine .bang fun byte heads => ?_
  rw [equal] at heads
  obtain rfl : first = byte := Option.some.inj heads
  exact other

mutual

/-- The printed form of an expression is read as the expression with its minus signs
folded. -/
theorem Expr.readFrom_text
    (expr : Expr)
    (formed : expr.WellFormed)
    (reparsable : expr.Reparsable) :
    expr.fold.bare.ReadFrom expr.text := by
  cases expr with
  | name _ name =>
      exact ⟨[(.identifier, name)], fun last rest _ delimits => .name formed delimits,
        fun grouped => .name rfl⟩
  | int _ value =>
      exact ⟨[(.integer, Text.ofInt value.toInt)],
        fun last rest operand delimits => .integer operand value.toInt delimits,
        fun grouped => .int rfl (Text.toInt64?_ofInt value)⟩
  | bool _ value =>
      cases value with
      | true =>
          show (Expr.bool .nowhere true).ReadFrom Kind.trueWord.name
          exact ⟨_, fun last rest _ delimits => .keyword rfl delimits, fun grouped => .true rfl⟩
      | false =>
          show (Expr.bool .nowhere false).ReadFrom Kind.falseWord.name
          exact ⟨_, fun last rest _ delimits => .keyword rfl delimits, fun grouped => .false rfl⟩
  | unary _ op operand =>
      have inner := Expr.readFrom_text operand formed.2 reparsable
      rw [Expr.fold, Expr.text]
      cases op with
      | negate =>
          by_cases natural : operand.isNaturalChain = true
          · rw [if_pos ⟨rfl, natural⟩, List.append_assoc (Text.ofString "(")]
            exact (Expr.readFrom_signed operand formed.2 reparsable natural).parenthesised
          · rw [if_neg fun both => natural both.2]
            exact inner.sign .negate rfl (Expr.yields_minus formed.2 natural .leftParen)
      | not =>
          rw [if_neg fun both => nomatch both.1]
          exact inner.sign .not rfl (Expr.yields_bang formed.2 .leftParen)
      | other code => cases formed.1
  | binary left op right =>
      exact (Expr.readFrom_text left formed.2.1 reparsable.1).binary
        (Expr.readFrom_text right formed.2.2 reparsable.2) formed.1
  | function _ params body =>
      exact .function formed.1 formed.2.1
        (Block.readFrom_closedText body formed.2.2 reparsable)
  | call callee args =>
      exact (Expr.readFrom_text callee formed.1 reparsable.1).call
        (Expr.allReadFrom_texts args formed.2 reparsable.2)
  | branch _ condition thenArm elseArm =>
      exact (Expr.readFrom_text condition formed.1 reparsable.1).branch
        (Block.readFrom_closedText thenArm formed.2.1 reparsable.2.1)
        (Block.elseReadFrom_elseText elseArm formed.2.2 reparsable.2.2)
  | missing => exact formed.elim
termination_by structural expr

/-- A minus sign before the printed form of a chain of calls on a literal belongs to the
literal. -/
theorem Expr.readFrom_signed
    (expr : Expr)
    (formed : expr.WellFormed)
    (reparsable : expr.Reparsable)
    (natural : expr.isNaturalChain = true) :
    expr.fold.negateHead.bare.ReadFrom (Kind.minus.name ++ expr.text) := by
  cases expr with
  | int _ value =>
      have unsigned : 0 ≤ value.toInt := of_decide_eq_true natural
      refine ⟨[(.integer, 45 :: Text.ofInt value.toInt)], fun last rest operand delimits => ?_,
        fun grouped => .int rfl (Text.toInt64?_minus_ofInt unsigned)⟩
      rw [Expr.text]
      obtain ⟨magnitude, equal⟩ := Int.eq_ofNat_of_zero_le unsigned
      rw [equal]
      exact .negative operand magnitude delimits
  | call callee args =>
      have called := (Expr.readFrom_signed callee formed.1 reparsable.1 natural).call
        (Expr.allReadFrom_texts args formed.2 reparsable.2)
      rw [Expr.fold, Expr.negateHead, Expr.bare, Expr.text]
      simpa only [List.append_assoc] using called
  | name | bool | unary | binary | function | branch | missing => cases natural
termination_by structural expr

theorem Expr.allReadFrom_texts
    (exprs : List Expr)
    (formed : Expr.AllWellFormed exprs)
    (reparsable : Expr.AllReparsable exprs) :
    Expr.AllReadFrom (Expr.bareAll (Expr.foldAll exprs)) (Text.join ", " (Expr.texts exprs)) := by
  cases exprs with
  | nil => exact .nil
  | cons expr exprs =>
      have first := Expr.readFrom_text expr formed.1 reparsable.1
      have others := Expr.allReadFrom_texts exprs formed.2 reparsable.2
      cases exprs with
      | nil => exact .single first
      | cons next exprs => exact .cons first others
termination_by structural exprs

theorem Stmt.readFrom_text
    (stmt : Stmt)
    (formed : stmt.WellFormed)
    (reparsable : stmt.Reparsable) :
    stmt.fold.bare.ReadFrom stmt.text := by
  cases stmt with
  | declare _ name value =>
      exact (Expr.readFrom_text value formed.2 reparsable).declare formed.1
  | result _ value => exact (Expr.readFrom_text value formed reparsable).result
  | assign | expr | missing => exact reparsable.elim
termination_by structural stmt

theorem Block.readFrom_closedText
    (stmts : List Stmt)
    (formed : Block.WellFormed stmts)
    (reparsable : Block.Reparsable stmts) :
    Block.ReadFrom (Block.bare (Block.fold stmts)) (Block.closedText stmts) := by
  cases stmts with
  | nil => exact .nil
  | cons stmt stmts =>
      exact .cons (Stmt.readFrom_text stmt formed.1 reparsable.1)
        (Block.readFrom_closedText stmts formed.2 reparsable.2)
termination_by structural stmts

theorem Block.elseReadFrom_elseText
    (arm : Option (List Stmt))
    (formed : Block.ElseWellFormed arm)
    (reparsable : Block.ElseReparsable arm) :
    Block.ElseReadFrom (Block.bareElse (Block.foldElse arm)) (Block.elseText arm) := by
  cases arm with
  | none => exact ⟨[], .nil, fun grouped => .absent⟩
  | some block => exact (Block.readFrom_closedText block formed reparsable).elseArm
termination_by structural arm

end

/-! ## Printing and then parsing -/

theorem Block.bareElse_foldElse_eq_none_iff (arm : Option (List Stmt)) :
    Block.bareElse (Block.foldElse arm) = none ↔ arm = none := by
  cases arm <;> simp [Block.foldElse, Block.bareElse]

theorem Block.bareElse_foldElse_eq_empty_iff (arm : Option (List Stmt)) :
    Block.bareElse (Block.foldElse arm) = some [] ↔ arm = some [] := by
  rcases arm with _ | _ | ⟨stmt, stmts⟩ <;>
    simp [Block.foldElse, Block.bareElse, Block.fold, Block.bare]

/-- Printing and then parsing is the identity up to positions and minus signs.  Let a
statement be a declaration or a return, and so all statements inside it, and let it be
well formed.  Then its printed form has no syntax error and gives exactly one statement,
the same up to positions with every minus sign before a chain of calls on a literal that
is not negative folded into the literal.  The second arm of a choice stays absent, empty
or neither, as it was. -/
theorem parse_print_is_fold
    {stmt : Stmt}
    (formed : stmt.WellFormed)
    (reparsable : stmt.Reparsable) :
    (∃ stmt', Program.ofText stmt.text = ⟨[stmt'], []⟩ ∧ stmt'.bare = stmt.fold.bare) ∧
    ∀ arm : Option Block,
      (Block.bareElse (Block.foldElse arm) = none ↔ arm = none) ∧
        (Block.bareElse (Block.foldElse arm) = some [] ↔ arm = some []) := by
  refine ⟨?_, fun arm => ⟨Block.bareElse_foldElse_eq_none_iff arm,
    Block.bareElse_foldElse_eq_empty_iff arm⟩⟩
  obtain ⟨words, yields, derived⟩ := Stmt.readFrom_text stmt formed reparsable
  obtain ⟨program', parsed, same⟩ :=
    Program.ofText_of_yields (yields .endOfInput [] .nil) (.last derived)
  cases program' with
  | nil => cases same
  | cons stmt' others =>
      simp only [Block.bare, List.cons.injEq] at same
      cases others with
      | nil => exact ⟨stmt', parsed, same.1.trans stmt.fold.bare_bare⟩
      | cons next others => simp only [Block.bare, reduceCtorEq, and_false] at same

/-- The minus sign before a call of a literal goes into the literal, and the one before a
choice stays. -/
theorem parse_print_is_fold_call :
    let choice : Expr := .branch .nowhere (.name .nowhere "b") [] (some [])
    let stmt : Stmt := .declare .start "x" (.unary .start .negate
      (.call (.int .start 5) [.unary .start .negate choice]))
    stmt.text = "let x = (-5((-if b \x7b \x7d else \x7b \x7d)))" ∧
      ∃ stmt', Program.ofText stmt.text = ⟨[stmt'], []⟩ ∧
        stmt'.bare = .declare .nowhere "x"
          (.call (.int .nowhere (-5)) [.unary .nowhere .negate choice]) := by
  intro choice stmt
  have formed : stmt.WellFormed := ⟨rfl, rfl, trivial, ⟨rfl, rfl, trivial, trivial⟩, trivial⟩
  have reparsable : stmt.Reparsable := ⟨trivial, ⟨trivial, trivial, trivial⟩, trivial⟩
  exact ⟨rfl, (parse_print_is_fold formed reparsable).1⟩

end Siren
