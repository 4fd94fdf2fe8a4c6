import Siren.Proofs.Correspondence
import Siren.Proofs.GrammarSoundness
import Siren.Proofs.LexerExtension

/-!
# Trees that source texts give

A tree is well formed when nothing in it is missing, its operators have a meaning,
its names are words that are not reserved, and the parameters of each function are
distinct.  A source text without syntax errors gives a well-formed program: by
induction over its derivation in the grammar, once the tokens that stand for names
are known to be such words.
-/

namespace Siren

/-- Whether a word can be a name: it starts with a letter or an underscore, goes on
with these and digits, and is not reserved. -/
def Lexeme.isName : Text → Bool
  | [] => false
  | first :: rest =>
    isWordStart first && rest.all isWordByte && wordKind (first :: rest) = .identifier

/-! ## Well-formed trees -/

mutual

/-- Nothing is missing in an expression, its operators have a meaning, its names can
be names, and its functions have distinct parameters. -/
def Expr.WellFormed : Expr → Prop
  | .name _ name => Lexeme.isName name = true
  | .int _ _ => True
  | .bool _ _ => True
  | .unary _ op operand => op.isKnown = true ∧ operand.WellFormed
  | .binary left op right => op.isKnown = true ∧ left.WellFormed ∧ right.WellFormed
  | .function _ params body =>
    params.Nodup ∧ (∀ name ∈ params, Lexeme.isName name = true) ∧ Block.WellFormed body
  | .call callee args => callee.WellFormed ∧ Expr.AllWellFormed args
  | .branch _ condition thenArm elseArm =>
    condition.WellFormed ∧ Block.WellFormed thenArm ∧ Block.ElseWellFormed elseArm
  | .missing => False
termination_by structural expr => expr

/-- All of some expressions are well formed. -/
def Expr.AllWellFormed : List Expr → Prop
  | [] => True
  | expr :: exprs => expr.WellFormed ∧ Expr.AllWellFormed exprs
termination_by structural exprs => exprs

/-- A statement is not missing, its name can be one, and its expression is well
formed. -/
def Stmt.WellFormed : Stmt → Prop
  | .declare _ name value => Lexeme.isName name = true ∧ value.WellFormed
  | .assign _ name value => Lexeme.isName name = true ∧ value.WellFormed
  | .expr value => value.WellFormed
  | .result _ value => value.WellFormed
  | .missing => False
termination_by structural stmt => stmt

/-- All of some statements are well formed. -/
def Block.WellFormed : List Stmt → Prop
  | [] => True
  | stmt :: stmts => stmt.WellFormed ∧ Block.WellFormed stmts
termination_by structural stmts => stmts

/-- The second arm of a choice is absent or well formed. -/
def Block.ElseWellFormed : Option (List Stmt) → Prop
  | none => True
  | some block => Block.WellFormed block
termination_by structural arm => arm

end

theorem Block.WellFormed.of_mem
    {stmts : List Stmt}
    (formed : Block.WellFormed stmts)
    {stmt : Stmt}
    (member : stmt ∈ stmts) :
    stmt.WellFormed := by
  induction stmts with
  | nil => cases member
  | cons first others inductionHypothesis =>
      cases member with
      | head => exact formed.1
      | tail _ later => exact inductionHypothesis formed.2 later

/-- A function with distinct parameters and a well-formed body. -/
structure Function.WellFormed (function : Function) : Prop where
  distinct : function.params.Nodup
  names : ∀ name ∈ function.params, Lexeme.isName name = true
  body : Block.WellFormed function.body

/-! ## Derived trees -/

/-- Tokens of which those that stand for names can be names. -/
def Token.Named (tokens : List Token) : Prop :=
  ∀ token ∈ tokens, token.kind = .identifier → Lexeme.isName token.lexeme = true

namespace Token.Named

variable {token : Token} {tokens tokens' : List Token}

theorem append (named : Token.Named (tokens ++ tokens')) :
    Token.Named tokens ∧ Token.Named tokens' :=
  List.forall_mem_append.mp named

theorem cons (named : Token.Named (token :: tokens)) :
    (token.kind = .identifier → Lexeme.isName token.lexeme = true) ∧ Token.Named tokens :=
  List.forall_mem_cons.mp named

end Token.Named

namespace Grammar

theorem Infix.isKnown {level : Level} {kind : Kind} {op : BinaryOp} (listed : Infix level kind op) :
    op.isKnown = true := by
  cases listed <;> rfl

theorem Sign.isKnown {kind : Kind} {op : UnaryOp} (sign : Sign kind op) : op.isKnown = true := by
  cases sign <;> rfl

theorem Parameters.isName
    {tokens : List Token}
    {names : List Text}
    (derived : Parameters tokens names)
    (named : Token.Named tokens) :
    ∀ name ∈ names, Lexeme.isName name = true := by
  induction derived with
  | one kind =>
      intro name member
      rw [List.mem_singleton.mp member]
      exact named.cons.1 kind
  | more kind _ _ inductionHypothesis =>
      obtain ⟨first, behind⟩ := named.cons
      exact List.forall_mem_cons.mpr ⟨first kind, inductionHypothesis behind.cons.2⟩

theorem ParameterList.isName
    {tokens : List Token}
    {names : List Text}
    (derived : ParameterList tokens names)
    (named : Token.Named tokens) :
    ∀ name ∈ names, Lexeme.isName name = true := by
  cases derived with
  | none => exact fun _ member => nomatch member
  | some listed => exact listed.isName named

mutual

/-- Expressions of the grammar are well formed. -/
theorem Expression.wellFormed
    {grouped : Bool}
    {level : Level}
    {tokens : List Token}
    {expr : Expr}
    (derived : Expression grouped level tokens expr)
    (named : Token.Named tokens) :
    expr.WellFormed := by
  match derived with
  | .int _ _ => exact trivial
  | .true _ => exact trivial
  | .false _ => exact trivial
  | .name kind => exact named.cons.1 kind
  | .group _ inner _ => exact Expression.wellFormed inner named.cons.2.append.1
  | .function _ _ listed distinct _ block =>
      obtain ⟨params, behind⟩ := named.cons.2.cons.2.append
      exact ⟨distinct, listed.isName params, Braces.wellFormed block behind.cons.2⟩
  | .choice choice => exact Choice.wellFormed choice named
  | .call called _ _ listed _ =>
      obtain ⟨callee, behind⟩ := named.append
      exact ⟨Expression.wellFormed called callee,
        ArgumentList.wellFormed listed behind.cons.2.append.1⟩
  | .sign kind inner => exact ⟨kind.isKnown, Expression.wellFormed inner named.cons.2⟩
  | .binary first kind _ second =>
      obtain ⟨left, behind⟩ := named.append
      exact ⟨kind.isKnown, Expression.wellFormed first left,
        Expression.wellFormed second behind.cons.2⟩
  | .tighter inner => exact Expression.wellFormed inner named
termination_by structural derived

theorem Choice.wellFormed
    {grouped : Bool}
    {tokens : List Token}
    {expr : Expr}
    (derived : Choice grouped tokens expr)
    (named : Token.Named tokens) :
    expr.WellFormed := by
  match derived with
  | .choice _ test block otherwise =>
      obtain ⟨condition, behind⟩ := named.cons.2.append
      exact ⟨Expression.wellFormed test condition, Braces.wellFormed block behind.append.1,
        ElseArm.wellFormed otherwise behind.append.2⟩
termination_by structural derived

theorem ElseArm.wellFormed
    {grouped : Bool}
    {tokens : List Token}
    {arm : Option Block}
    (derived : ElseArm grouped tokens arm)
    (named : Token.Named tokens) :
    Block.ElseWellFormed arm := by
  match derived with
  | .absent => exact trivial
  | .block _ block => exact Braces.wellFormed block named.cons.2
  | .chain _ choice => exact ⟨Choice.wellFormed choice named.cons.2, trivial⟩
termination_by structural derived

theorem ArgumentList.wellFormed
    {tokens : List Token}
    {args : List Expr}
    (derived : ArgumentList tokens args)
    (named : Token.Named tokens) :
    Expr.AllWellFormed args := by
  match derived with
  | .none => exact trivial
  | .some listed => exact Arguments.wellFormed listed named
termination_by structural derived

theorem Arguments.wellFormed
    {tokens : List Token}
    {args : List Expr}
    (derived : Arguments tokens args)
    (named : Token.Named tokens) :
    Expr.AllWellFormed args := by
  match derived with
  | .one only => exact ⟨Expression.wellFormed only named, trivial⟩
  | .more first _ rest =>
      obtain ⟨head, behind⟩ := named.append
      exact ⟨Expression.wellFormed first head, Arguments.wellFormed rest behind.cons.2⟩
termination_by structural derived

theorem Braces.wellFormed
    {tokens : List Token}
    {block : Block}
    (derived : Braces tokens block)
    (named : Token.Named tokens) :
    Block.WellFormed block := by
  match derived with
  | .block _ inner _ => exact Statements.wellFormed inner named.cons.2.append.1
termination_by structural derived

theorem Statement.wellFormed
    {tokens : List Token}
    {stmt : Stmt}
    (derived : Statement tokens stmt)
    (named : Token.Named tokens) :
    stmt.WellFormed := by
  match derived with
  | .result _ given => exact Expression.wellFormed given named.cons.2
  | .declare _ name _ given =>
      obtain ⟨first, behind⟩ := named.cons.2.cons
      exact ⟨first name, Expression.wellFormed given behind.cons.2⟩
  | .assign name _ given =>
      obtain ⟨first, behind⟩ := named.cons
      exact ⟨first name, Expression.wellFormed given behind.cons.2⟩
  | .choice choice => exact Choice.wellFormed choice named
  | .expr _ given => exact Expression.wellFormed given named
termination_by structural derived

/-- Statements of the grammar are well formed. -/
theorem Statements.wellFormed
    {tokens : List Token}
    {stmts : List Stmt}
    (derived : Statements tokens stmts)
    (named : Token.Named tokens) :
    Block.WellFormed stmts := by
  match derived with
  | .nil => exact trivial
  | .empty _ rest => exact Statements.wellFormed rest named.cons.2
  | .last first => exact ⟨Statement.wellFormed first named, trivial⟩
  | .closed first _ rest =>
      obtain ⟨head, behind⟩ := named.append
      exact ⟨Statement.wellFormed first head, Statements.wellFormed rest behind.cons.2⟩
  | .adjacent first _ _ rest =>
      obtain ⟨head, behind⟩ := named.append
      exact ⟨Statement.wellFormed first head, Statements.wellFormed rest behind⟩
termination_by structural derived

end

end Grammar

/-! ## Programs of source texts -/

/-- A word that is recognised as a name can be one. -/
theorem Lexeme.isName_of_recognise
    {text lexeme : Text}
    (found : recognise text = .token .identifier lexeme) :
    isName lexeme = true := by
  cases text with
  | nil => cases found
  | cons byte rest =>
      simp only [recognise] at found
      split at found
      · cases found
      · split at found
        · cases found
        · split at found
          · rename_i kind listed
            have member := List.mem_of_find?_eq_some listed
            obtain ⟨rfl, -⟩ := Found.token.inj found
            exact absurd member (by decide)
          · split at found
            · cases found
            · split at found
              · rename_i letter
                obtain ⟨kind, rfl⟩ := Found.token.inj found
                have first : isWordByte byte = true := by simp [isWordByte, letter]
                rw [List.takeWhile_cons, if_pos first] at kind ⊢
                simp [isName, letter, kind, List.all_takeWhile]
              · cases found

namespace Lexer

/-- A token that stands for a name can be one. -/
theorem isName_next
    (lexer : Lexer)
    (kind : lexer.next.1.kind = .identifier) :
    Lexeme.isName lexer.next.1.lexeme = true := by
  fun_induction next lexer with
  | case1 lexer lexeme signed => cases kind
  | case2 lexer signed found => cases kind
  | case3 lexer signed lexeme found length inductionHypothesis => exact inductionHypothesis kind
  | case4 lexer signed kind' lexeme found =>
      obtain rfl : kind' = .identifier := kind
      exact Lexeme.isName_of_recognise found
  | case5 lexer signed byte found => cases kind

theorem named_body (lexer : Lexer) : Token.Named lexer.body := by
  have named : Token.Named lexer.tokenize.1 := forall_mem_tokenize isName_next lexer
  exact fun token member => named token (lexer.body_subset_tokenize member)

end Lexer

/-- A source text without syntax errors gives a well-formed program. -/
theorem Program.wellFormed_ofText
    {source : Text}
    (clean : (Program.ofText source).errors = []) :
    Block.WellFormed (Program.ofText source).program := by
  have derived := Parser.program_sound (.ofTokens (Token.ofText source)) rfl clean
  exact derived.wellFormed (Lexer.ofText source).named_body

end Siren
