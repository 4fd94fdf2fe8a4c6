import Siren.Proofs.BareTrees
import Siren.Proofs.GrammarCompleteness

/-!
# Line breaks

Of the positions of tokens the parser uses only this: whether the token after a
closing brace is on a later line, and this only where no parenthesis is open inside
the innermost brace.  Two token lists that agree on it, and in the kind and lexeme of
every token, stand for the same trees without positions.

The parentheses open at a token are counted along the list, one number for each open
brace.  Every derived list is balanced, so the count after a part of a derivation is
the count before it, and what the grammar calls grouped is a count other than zero.
-/

namespace Siren

/-! ## Open brackets -/

/-- Whether tokens of a kind open or close something. -/
def Kind.isBracket : Kind → Bool
  | .leftParen | .rightParen | .leftBrace | .rightBrace => true
  | _ => false

namespace Token

/-- The numbers of parentheses open inside each open brace, the innermost brace first,
after one more token. -/
def nest (opened : List Nat) (kind : Kind) : List Nat :=
  match kind, opened with
  | .leftBrace, opened => 0 :: opened
  | .rightBrace, _ :: outer => outer
  | .leftParen, parens :: outer => (parens + 1) :: outer
  | .rightParen, parens :: outer => (parens - 1) :: outer
  | _, opened => opened

/-- The same numbers after a list of tokens. -/
def nesting (opened : List Nat) (tokens : List Token) : List Nat :=
  tokens.foldl (fun opened token => nest opened token.kind) opened

theorem nesting_cons (opened : List Nat) (token : Token) (tokens : List Token) :
    nesting opened (token :: tokens) = nesting (nest opened token.kind) tokens := rfl

theorem nesting_append (opened : List Nat) (tokens tokens' : List Token) :
    nesting opened (tokens ++ tokens') = nesting (nesting opened tokens) tokens' :=
  List.foldl_append

theorem nest_of_isBracket
    {kind : Kind}
    (plain : kind.isBracket = false)
    (opened : List Nat) :
    nest opened kind = opened := by
  unfold nest
  split
  · cases plain
  · cases plain
  · cases plain
  · cases plain
  · rfl

/-- Everything that the tokens open they close. -/
def Balanced (tokens : List Token) : Prop :=
  ∀ parens outer, nesting (parens :: outer) tokens = parens :: outer

namespace Balanced

variable {token opening closing : Token} {tokens tokens' : List Token}

theorem nil : Balanced [] :=
  fun _ _ => rfl

theorem append (first : Balanced tokens) (second : Balanced tokens') :
    Balanced (tokens ++ tokens') := by
  intro parens outer
  rw [nesting_append, first, second]

theorem cons (plain : token.kind.isBracket = false) (rest : Balanced tokens) :
    Balanced (token :: tokens) := by
  intro parens outer
  rw [nesting_cons, nest_of_isBracket plain, rest]

theorem single (plain : token.kind.isBracket = false) : Balanced [token] :=
  cons plain nil

theorem parens
    (opened : opening.kind = .leftParen)
    (inner : Balanced tokens)
    (closed : closing.kind = .rightParen) :
    Balanced (opening :: (tokens ++ [closing])) := by
  intro parens outer
  rw [nesting_cons, opened, nest, nesting_append, inner, nesting_cons, closed, nest]
  rfl

theorem braces
    (opened : opening.kind = .leftBrace)
    (inner : Balanced tokens)
    (closed : closing.kind = .rightBrace) :
    Balanced (opening :: (tokens ++ [closing])) := by
  intro parens outer
  rw [nesting_cons, opened, nest, nesting_append, inner, nesting_cons, closed, nest]
  rfl

end Balanced
end Token

namespace Grammar

open Token (Balanced)

theorem Infix.isBracket {level : Level} {kind : Kind} {op : BinaryOp} (listed : Infix level kind op) :
    kind.isBracket = false := by
  cases listed <;> rfl

theorem Sign.isBracket {kind : Kind} {op : UnaryOp} (sign : Sign kind op) :
    kind.isBracket = false := by
  cases sign <;> rfl

theorem Parameters.balanced
    {tokens : List Token}
    {names : List Text}
    (derived : Parameters tokens names) :
    Balanced tokens := by
  induction derived with
  | one kind => exact .single (by rw [kind]; rfl)
  | more kind separated _ inductionHypothesis =>
      exact .cons (by rw [kind]; rfl) (.cons (by rw [separated]; rfl) inductionHypothesis)

theorem ParameterList.balanced
    {tokens : List Token}
    {names : List Text}
    (derived : ParameterList tokens names) :
    Balanced tokens := by
  cases derived with
  | none => exact .nil
  | some listed => exact listed.balanced

mutual

theorem Expression.balanced
    {grouped : Bool}
    {level : Level}
    {tokens : List Token}
    {expr : Expr}
    (derived : Expression grouped level tokens expr) :
    Balanced tokens := by
  match derived with
  | .int kind _ | .true kind | .false kind | .name kind => exact .single (by rw [kind]; rfl)
  | .group opened inner closed => exact .parens opened inner.balanced closed
  | .function kind opened listed _ closed block =>
      have signature := (Balanced.parens opened listed.balanced closed).append block.balanced
      rw [List.cons_append, List.append_assoc, List.singleton_append] at signature
      exact .cons (by rw [kind]; rfl) signature
  | .choice choice => exact choice.balanced
  | .call called opened _ listed closed =>
      exact called.balanced.append (.parens opened listed.balanced closed)
  | .sign kind inner => exact .cons kind.isBracket inner.balanced
  | .binary first kind _ second =>
      exact first.balanced.append (.cons kind.isBracket second.balanced)
  | .tighter inner => exact inner.balanced
termination_by structural derived

theorem Choice.balanced
    {grouped : Bool}
    {tokens : List Token}
    {expr : Expr}
    (derived : Choice grouped tokens expr) :
    Balanced tokens := by
  match derived with
  | .choice kind test block otherwise =>
      exact .cons (by rw [kind]; rfl)
        (test.balanced.append (block.balanced.append otherwise.balanced))
termination_by structural derived

theorem ElseArm.balanced
    {grouped : Bool}
    {tokens : List Token}
    {arm : Option Block}
    (derived : ElseArm grouped tokens arm) :
    Balanced tokens := by
  match derived with
  | .absent => exact .nil
  | .block kind block => exact .cons (by rw [kind]; rfl) block.balanced
  | .chain kind choice => exact .cons (by rw [kind]; rfl) choice.balanced
termination_by structural derived

theorem ArgumentList.balanced
    {tokens : List Token}
    {args : List Expr}
    (derived : ArgumentList tokens args) :
    Balanced tokens := by
  match derived with
  | .none => exact .nil
  | .some listed => exact listed.balanced
termination_by structural derived

theorem Arguments.balanced
    {tokens : List Token}
    {args : List Expr}
    (derived : Arguments tokens args) :
    Balanced tokens := by
  match derived with
  | .one only => exact only.balanced
  | .more first separated rest =>
      exact first.balanced.append (.cons (by rw [separated]; rfl) rest.balanced)
termination_by structural derived

theorem Braces.balanced
    {tokens : List Token}
    {block : Block}
    (derived : Braces tokens block) :
    Balanced tokens := by
  match derived with
  | .block opened inner closed => exact .braces opened inner.balanced closed
termination_by structural derived

theorem Statement.balanced
    {tokens : List Token}
    {stmt : Stmt}
    (derived : Statement tokens stmt) :
    Balanced tokens := by
  match derived with
  | .result kind given => exact .cons (by rw [kind]; rfl) given.balanced
  | .declare kind named marked given =>
      exact .cons (by rw [kind]; rfl)
        (.cons (by rw [named]; rfl) (.cons (by rw [marked]; rfl) given.balanced))
  | .assign named marked given =>
      exact .cons (by rw [named]; rfl) (.cons (by rw [marked]; rfl) given.balanced)
  | .choice choice => exact choice.balanced
  | .expr _ given => exact given.balanced
termination_by structural derived

theorem Statements.balanced
    {tokens : List Token}
    {stmts : List Stmt}
    (derived : Statements tokens stmts) :
    Balanced tokens := by
  match derived with
  | .nil => exact .nil
  | .empty kind rest => exact .cons (by rw [kind]; rfl) rest.balanced
  | .last first => exact first.balanced
  | .closed first kind rest =>
      exact first.balanced.append (.cons (by rw [kind]; rfl) rest.balanced)
  | .adjacent first _ _ rest => exact first.balanced.append rest.balanced
termination_by structural derived

end

end Grammar

/-! ## Alike tokens -/

namespace Token

open Grammar (BreaksLine StartsChoice)

/-- Tokens that agree in kind and lexeme and, after a closing brace where no
parenthesis is open inside the innermost brace, on whether the next token is on a later
line; `opened` counts what is open before them. -/
inductive AlikeFrom : (opened : List Nat) → List Token → List Token → Prop where
  | nil {opened : List Nat} : AlikeFrom opened [] []
  | cons {opened : List Nat} {token token' : Token} {tokens tokens' : List Token}
      (kind : token'.kind = token.kind)
      (lexeme : token'.lexeme = token.lexeme)
      (breaks : token.kind = .rightBrace → (nest opened token.kind).head? = some 0 →
        ∀ next ∈ tokens.head?, ∀ next' ∈ tokens'.head?,
          (token.pos.line < next.pos.line ↔ token'.pos.line < next'.pos.line))
      (rest : AlikeFrom (nest opened token.kind) tokens tokens') :
      AlikeFrom opened (token :: tokens) (token' :: tokens')

theorem breaksLine_singleton (token next : Token) :
    BreaksLine [token] next ↔ token.kind = .rightBrace ∧ token.pos.line < next.pos.line := by
  simp [BreaksLine]

theorem breaksLine_cons_cons (token token' next : Token) (tokens : List Token) :
    BreaksLine (token :: token' :: tokens) next ↔ BreaksLine (token' :: tokens) next := by
  rw [BreaksLine, BreaksLine, List.getLast?_cons_cons]

namespace AlikeFrom

variable {opened : List Nat} {token : Token} {tokens tokens' first second : List Token}

theorem eq_nil (alike : AlikeFrom opened [] tokens') : tokens' = [] := by
  cases alike
  rfl

theorem uncons (alike : AlikeFrom opened (token :: tokens) tokens') :
    ∃ token' rest, tokens' = token' :: rest ∧ token'.kind = token.kind ∧
      token'.lexeme = token.lexeme ∧ AlikeFrom (nest opened token.kind) tokens rest := by
  cases alike with
  | cons kind lexeme _ rest => exact ⟨_, _, rfl, kind, lexeme, rest⟩

theorem kinds (alike : AlikeFrom opened tokens tokens') :
    tokens'.map Token.kind = tokens.map Token.kind := by
  induction alike with
  | nil => rfl
  | cons kind _ _ _ inductionHypothesis =>
      rw [List.map_cons, List.map_cons, kind, inductionHypothesis]

/-- Alike tokens are alike in parts, and agree on whether there is a line break after a
closing brace between the parts. -/
theorem split (alike : AlikeFrom opened (first ++ second) tokens') :
    ∃ first' second', tokens' = first' ++ second' ∧ AlikeFrom opened first first' ∧
      AlikeFrom (nesting opened first) second second' ∧
      ((nesting opened first).head? = some 0 →
        ∀ next ∈ second.head?, ∀ next' ∈ second'.head?,
          (BreaksLine first next ↔ BreaksLine first' next')) := by
  induction first generalizing opened tokens' with
  | nil =>
      refine ⟨[], tokens', rfl, .nil, alike, fun _ next _ next' _ => ?_⟩
      simp [BreaksLine]
  | cons token first inductionHypothesis =>
      cases alike with
      | @cons _ _ token' _ rest' kind lexeme breaks rest =>
          obtain ⟨first', second', rfl, alike, alike', agree⟩ := inductionHypothesis rest
          refine ⟨token' :: first', second', rfl, .cons kind lexeme ?_ alike, alike', ?_⟩
          · intro brace ungrouped next heads next' heads'
            refine breaks brace ungrouped next ?_ next' ?_
            · exact List.mem_head?_append_of_mem_head? heads
            · exact List.mem_head?_append_of_mem_head? heads'
          · intro ungrouped next heads next' heads'
            cases alike with
            | nil =>
                rw [breaksLine_singleton, breaksLine_singleton, kind]
                refine and_congr_right fun brace => ?_
                exact breaks brace ungrouped next heads next' heads'
            | cons _ _ _ _ =>
                rw [breaksLine_cons_cons, breaksLine_cons_cons]
                exact agree ungrouped next heads next' heads'

/-- The count after a balanced part is the count before it. -/
theorem split_balanced
    {parens : Nat}
    {outer : List Nat}
    (alike : AlikeFrom (parens :: outer) (first ++ second) tokens')
    (balanced : Balanced first) :
    ∃ first' second', tokens' = first' ++ second' ∧ AlikeFrom (parens :: outer) first first' ∧
      AlikeFrom (parens :: outer) second second' ∧
      (parens = 0 → ∀ next ∈ second.head?, ∀ next' ∈ second'.head?,
        (BreaksLine first next ↔ BreaksLine first' next')) := by
  obtain ⟨first', second', rfl, alike, alike', agree⟩ := alike.split
  rw [balanced parens outer] at alike' agree
  exact ⟨first', second', rfl, alike, alike', fun none => agree (congrArg some none)⟩

theorem startsChoice_iff (alike : AlikeFrom opened tokens tokens') :
    StartsChoice tokens' ↔ StartsChoice tokens := by
  have starts (tokens : List Token) :
      StartsChoice tokens ↔ (tokens.map Token.kind).head? = some .ifWord := by
    rw [List.head?_map, Option.map_eq_some_iff]
    rfl
  rw [starts, starts, alike.kinds]

theorem head? (alike : AlikeFrom opened tokens tokens') {next' : Token}
    (heads : next' ∈ tokens'.head?) :
    ∃ next ∈ tokens.head?, next'.kind = next.kind := by
  cases alike with
  | nil => cases heads
  | cons kind _ _ _ =>
      obtain rfl := Option.some.inj heads
      exact ⟨_, rfl, kind⟩

end AlikeFrom
end Token

/-! ## Derivations over related tokens -/

namespace Grammar

open Token (Balanced AlikeFrom nest)

/-- A relation between token lists, after what is open before them, along which derivations
are carried.  Related tokens agree in kind and lexeme, and their parts are related.  Where
no parenthesis is open, a related part breaks the line only where the first one does, and
ends as a statement where the first one does. -/
structure Carries (rel : List Nat → List Token → List Token → Prop) : Prop where
  nil {opened : List Nat} {tokens' : List Token}
    (related : rel opened [] tokens') :
    tokens' = []
  cons {opened : List Nat} {token : Token} {tokens tokens' : List Token}
    (related : rel opened (token :: tokens) tokens') :
    ∃ token' rest, tokens' = token' :: rest ∧ token'.kind = token.kind ∧
      token'.lexeme = token.lexeme ∧ rel (nest opened token.kind) tokens rest
  split {parens : Nat} {outer : List Nat} {first second tokens' : List Token}
    (related : rel (parens :: outer) (first ++ second) tokens')
    (balanced : Balanced first) :
    ∃ first' second', tokens' = first' ++ second' ∧ rel (parens :: outer) first first' ∧
      rel (parens :: outer) second second' ∧
      (parens = 0 → ∀ next ∈ second.head?, ∀ next' ∈ second'.head?,
        (BreaksLine first' next' → BreaksLine first next) ∧
        ∀ stmt, Statement first stmt → EndsBefore first next → EndsBefore first' next')

variable {rel : List Nat → List Token → List Token → Prop}

namespace Carries

variable {opened : List Nat} {token : Token} {tokens tokens' : List Token}

theorem single
    (carries : Carries rel)
    (related : rel opened [token] tokens') :
    ∃ token', tokens' = [token'] ∧ token'.kind = token.kind ∧ token'.lexeme = token.lexeme := by
  obtain ⟨token', rest, rfl, kind, lexeme, related⟩ := carries.cons related
  obtain rfl := carries.nil related
  exact ⟨token', rfl, kind, lexeme⟩

theorem kinds
    (carries : Carries rel)
    (related : rel opened tokens tokens') :
    tokens'.map Token.kind = tokens.map Token.kind := by
  induction tokens generalizing opened tokens' with
  | nil =>
      obtain rfl := carries.nil related
      rfl
  | cons token tokens inductionHypothesis =>
      obtain ⟨token', rest, rfl, kind, -, related⟩ := carries.cons related
      rw [List.map_cons, List.map_cons, kind, inductionHypothesis related]

theorem endsInBrace
    (carries : Carries rel)
    (related : rel opened tokens tokens')
    (brace : EndsInBrace tokens) :
    EndsInBrace tokens' := by
  obtain ⟨last, ends, kind⟩ := brace
  have kinds := congrArg List.getLast? (carries.kinds related)
  rw [List.getLast?_map, List.getLast?_map, ends] at kinds
  obtain ⟨last', ends', kind'⟩ := Option.map_eq_some_iff.mp kinds
  exact ⟨last', ends', kind'.trans kind⟩

theorem startsChoice
    (carries : Carries rel)
    (related : rel opened tokens tokens')
    (starts : StartsChoice tokens') :
    StartsChoice tokens := by
  obtain ⟨first', heads', kind⟩ := starts
  obtain ⟨rest', rfl⟩ := List.head?_eq_some_iff.mp heads'
  cases tokens with
  | nil => cases carries.nil related
  | cons first rest =>
      obtain ⟨_, _, equal, same, -⟩ := carries.cons related
      obtain ⟨rfl, -⟩ := List.cons.inj equal
      exact ⟨first, rfl, same.symm.trans kind⟩

theorem exists_head?
    (carries : Carries rel)
    (related : rel opened tokens tokens')
    {next' : Token}
    (heads : next' ∈ tokens'.head?) :
    ∃ next, next ∈ tokens.head? := by
  cases tokens with
  | nil =>
      obtain rfl := carries.nil related
      cases heads
  | cons next rest => exact ⟨next, rfl⟩

end Carries

theorem Parameters.carry
    {tokens : List Token}
    {names : List Text}
    (derived : Parameters tokens names)
    (carries : Carries rel)
    {opened : List Nat}
    {tokens' : List Token}
    (related : rel opened tokens tokens') :
    Parameters tokens' names := by
  induction derived generalizing opened tokens' with
  | one kind =>
      obtain ⟨token', rfl, kind', lexeme⟩ := carries.single related
      rw [← lexeme]
      exact .one (kind'.trans kind)
  | more kind separated _ inductionHypothesis =>
      obtain ⟨token', _, rfl, kind', lexeme, related⟩ := carries.cons related
      obtain ⟨comma', _, rfl, separated', -, related⟩ := carries.cons related
      rw [← lexeme]
      exact .more (kind'.trans kind) (separated'.trans separated) (inductionHypothesis related)

theorem ParameterList.carry
    {tokens : List Token}
    {names : List Text}
    (derived : ParameterList tokens names)
    (carries : Carries rel)
    {opened : List Nat}
    {tokens' : List Token}
    (related : rel opened tokens tokens') :
    ParameterList tokens' names := by
  cases derived with
  | none =>
      obtain rfl := carries.nil related
      exact .none
  | some listed => exact .some (listed.carry carries related)

mutual

/-- Tokens related to those of an expression stand for the same expression without
positions. -/
theorem Expression.carry
    {grouped : Bool}
    {level : Level}
    {tokens : List Token}
    {expr : Expr}
    (derived : Expression grouped level tokens expr)
    (carries : Carries rel)
    {parens : Nat}
    {outer : List Nat}
    (inside : grouped = .false → parens = 0)
    {tokens' : List Token}
    (related : rel (parens :: outer) tokens tokens') :
    ∃ expr', Expression grouped level tokens' expr' ∧ expr'.bare = expr.bare := by
  match derived with
  | .int kind inRange =>
      obtain ⟨token', rfl, kind', lexeme⟩ := carries.single related
      rw [← lexeme] at inRange
      exact ⟨_, .int (kind'.trans kind) inRange, rfl⟩
  | .true kind =>
      obtain ⟨token', rfl, kind', -⟩ := carries.single related
      exact ⟨_, .true (kind'.trans kind), rfl⟩
  | .false kind =>
      obtain ⟨token', rfl, kind', -⟩ := carries.single related
      exact ⟨_, .false (kind'.trans kind), rfl⟩
  | .name kind =>
      obtain ⟨token', rfl, kind', lexeme⟩ := carries.single related
      exact ⟨_, .name (kind'.trans kind), by rw [Expr.bare, Expr.bare, lexeme]⟩
  | .group opened inner closed =>
      obtain ⟨opening', _, rfl, opened', -, related⟩ := carries.cons related
      rw [opened] at related
      obtain ⟨tokens', _, rfl, part, last, -⟩ := carries.split related inner.balanced
      obtain ⟨closing', rfl, closed', -⟩ := carries.single last
      obtain ⟨expr', inner', same⟩ := inner.carry carries nofun part
      exact ⟨expr', .group (opened'.trans opened) inner' (closed'.trans closed), same⟩
  | .function kind opened listed distinct closed block =>
      obtain ⟨word', _, rfl, kind', -, related⟩ := carries.cons related
      rw [kind] at related
      obtain ⟨opening', _, rfl, opened', -, related⟩ := carries.cons related
      rw [opened] at related
      obtain ⟨params', _, rfl, params, related, -⟩ := carries.split related listed.balanced
      obtain ⟨closing', _, rfl, closed', -, related⟩ := carries.cons related
      rw [closed] at related
      obtain ⟨body', block', same⟩ := block.carry carries related
      exact ⟨_, .function (kind'.trans kind) (opened'.trans opened) (listed.carry carries params)
        distinct (closed'.trans closed) block', by rw [Expr.bare, Expr.bare, same]⟩
  | .choice choice =>
      obtain ⟨expr', choice', same⟩ := choice.carry carries inside related
      exact ⟨expr', .choice choice', same⟩
  | .call called opened sameLine listed closed =>
      obtain ⟨tokens', _, rfl, first, related, agree⟩ := carries.split related called.balanced
      obtain ⟨opening', _, rfl, opened', -, related⟩ := carries.cons related
      rw [opened] at related
      obtain ⟨arguments', _, rfl, part, last, -⟩ := carries.split related listed.balanced
      obtain ⟨closing', rfl, closed', -⟩ := carries.single last
      obtain ⟨callee', called', same⟩ := called.carry carries inside first
      obtain ⟨args', listed', same'⟩ := listed.carry carries part
      refine ⟨.call callee' args', .call called' (opened'.trans opened) ?_ listed'
        (closed'.trans closed), by rw [Expr.bare, Expr.bare, same, same']⟩
      exact fun ungrouped breaks =>
        sameLine ungrouped ((agree (inside ungrouped) _ rfl _ rfl).1 breaks)
  | .sign kind inner =>
      obtain ⟨token', _, rfl, kind', -, related⟩ := carries.cons related
      rw [Token.nest_of_isBracket kind.isBracket] at related
      obtain ⟨operand', inner', same⟩ := inner.carry carries inside related
      exact ⟨_, .sign (kind' ▸ kind) inner', by rw [Expr.bare, Expr.bare, same]⟩
  | .binary first kind sameLine second =>
      obtain ⟨tokens', _, rfl, part, rest, agree⟩ := carries.split related first.balanced
      obtain ⟨token', _, rfl, kind', -, rest⟩ := carries.cons rest
      rw [Token.nest_of_isBracket kind.isBracket] at rest
      obtain ⟨left', first', same⟩ := first.carry carries inside part
      obtain ⟨right', second', same'⟩ := second.carry carries inside rest
      refine ⟨_, .binary first' (kind' ▸ kind) ?_ second',
        by rw [Expr.bare, Expr.bare, same, same']⟩
      exact fun ungrouped breaks =>
        sameLine ungrouped ((agree (inside ungrouped) _ rfl _ rfl).1 breaks)
  | .tighter inner =>
      obtain ⟨expr', inner', same⟩ := inner.carry carries inside related
      exact ⟨expr', .tighter inner', same⟩
termination_by structural derived

theorem Choice.carry
    {grouped : Bool}
    {tokens : List Token}
    {expr : Expr}
    (derived : Choice grouped tokens expr)
    (carries : Carries rel)
    {parens : Nat}
    {outer : List Nat}
    (inside : grouped = .false → parens = 0)
    {tokens' : List Token}
    (related : rel (parens :: outer) tokens tokens') :
    ∃ expr', Choice grouped tokens' expr' ∧ expr'.bare = expr.bare := by
  match derived with
  | .choice kind test block otherwise =>
      obtain ⟨word', _, rfl, kind', -, related⟩ := carries.cons related
      rw [kind] at related
      obtain ⟨tokens', _, rfl, condition, related, -⟩ := carries.split related test.balanced
      obtain ⟨first', second', rfl, first, second, -⟩ := carries.split related block.balanced
      obtain ⟨condition', test', same⟩ := test.carry carries inside condition
      obtain ⟨thenArm', block', same'⟩ := block.carry carries first
      obtain ⟨elseArm', otherwise', same''⟩ := otherwise.carry carries inside second
      exact ⟨_, .choice (kind'.trans kind) test' block' otherwise',
        by rw [Expr.bare, Expr.bare, same, same', same'']⟩
termination_by structural derived

theorem ElseArm.carry
    {grouped : Bool}
    {tokens : List Token}
    {arm : Option Block}
    (derived : ElseArm grouped tokens arm)
    (carries : Carries rel)
    {parens : Nat}
    {outer : List Nat}
    (inside : grouped = .false → parens = 0)
    {tokens' : List Token}
    (related : rel (parens :: outer) tokens tokens') :
    ∃ arm', ElseArm grouped tokens' arm' ∧ Block.bareElse arm' = Block.bareElse arm := by
  match derived with
  | .absent =>
      obtain rfl := carries.nil related
      exact ⟨none, .absent, rfl⟩
  | .block kind block =>
      obtain ⟨word', _, rfl, kind', -, related⟩ := carries.cons related
      rw [kind] at related
      obtain ⟨body', block', same⟩ := block.carry carries related
      exact ⟨_, .block (kind'.trans kind) block', by rw [Block.bareElse, Block.bareElse, same]⟩
  | .chain kind choice =>
      obtain ⟨word', _, rfl, kind', -, related⟩ := carries.cons related
      rw [kind] at related
      obtain ⟨nested', choice', same⟩ := choice.carry carries inside related
      refine ⟨_, .chain (kind'.trans kind) choice', ?_⟩
      simp only [Block.bareElse, Block.bare, Stmt.bare, same]
termination_by structural derived

theorem ArgumentList.carry
    {tokens : List Token}
    {args : List Expr}
    (derived : ArgumentList tokens args)
    (carries : Carries rel)
    {parens : Nat}
    {outer : List Nat}
    {tokens' : List Token}
    (related : rel (parens :: outer) tokens tokens') :
    ∃ args', ArgumentList tokens' args' ∧ Expr.bareAll args' = Expr.bareAll args := by
  match derived with
  | .none =>
      obtain rfl := carries.nil related
      exact ⟨[], .none, rfl⟩
  | .some listed =>
      obtain ⟨args', listed', same⟩ := listed.carry carries related
      exact ⟨args', .some listed', same⟩
termination_by structural derived

theorem Arguments.carry
    {tokens : List Token}
    {args : List Expr}
    (derived : Arguments tokens args)
    (carries : Carries rel)
    {parens : Nat}
    {outer : List Nat}
    {tokens' : List Token}
    (related : rel (parens :: outer) tokens tokens') :
    ∃ args', Arguments tokens' args' ∧ Expr.bareAll args' = Expr.bareAll args := by
  match derived with
  | .one only =>
      obtain ⟨expr', only', same⟩ := only.carry carries nofun related
      exact ⟨_, .one only', by simp only [Expr.bareAll, same]⟩
  | .more first separated rest =>
      obtain ⟨tokens', _, rfl, part, more, -⟩ := carries.split related first.balanced
      obtain ⟨comma', _, rfl, separated', -, more⟩ := carries.cons more
      rw [separated] at more
      obtain ⟨expr', first', same⟩ := first.carry carries nofun part
      obtain ⟨args', rest', same'⟩ := rest.carry carries more
      exact ⟨_, .more first' (separated'.trans separated) rest',
        by rw [Expr.bareAll, Expr.bareAll, same, same']⟩
termination_by structural derived

theorem Braces.carry
    {tokens : List Token}
    {block : Block}
    (derived : Braces tokens block)
    (carries : Carries rel)
    {opened : List Nat}
    {tokens' : List Token}
    (related : rel opened tokens tokens') :
    ∃ block', Braces tokens' block' ∧ Block.bare block' = Block.bare block := by
  match derived with
  | .block opened inner closed =>
      obtain ⟨opening', _, rfl, opened', -, related⟩ := carries.cons related
      rw [opened] at related
      obtain ⟨tokens', _, rfl, part, last, -⟩ := carries.split related inner.balanced
      obtain ⟨closing', rfl, closed', -⟩ := carries.single last
      obtain ⟨block', inner', same⟩ := inner.carry carries part
      exact ⟨block', .block (opened'.trans opened) inner' (closed'.trans closed), same⟩
termination_by structural derived

theorem Statement.carry
    {tokens : List Token}
    {stmt : Stmt}
    (derived : Statement tokens stmt)
    (carries : Carries rel)
    {outer : List Nat}
    {tokens' : List Token}
    (related : rel (0 :: outer) tokens tokens') :
    ∃ stmt', Statement tokens' stmt' ∧ stmt'.bare = stmt.bare := by
  match derived with
  | .result kind given =>
      obtain ⟨word', _, rfl, kind', -, related⟩ := carries.cons related
      rw [kind] at related
      obtain ⟨value', given', same⟩ := given.carry carries (fun _ => rfl) related
      exact ⟨_, .result (kind'.trans kind) given', by rw [Stmt.bare, Stmt.bare, same]⟩
  | .declare kind named marked given =>
      obtain ⟨word', _, rfl, kind', -, related⟩ := carries.cons related
      obtain ⟨name', _, rfl, named', lexeme, related⟩ := carries.cons related
      obtain ⟨mark', _, rfl, marked', -, related⟩ := carries.cons related
      rw [kind, named, marked] at related
      obtain ⟨value', given', same⟩ := given.carry carries (fun _ => rfl) related
      exact ⟨_, .declare (kind'.trans kind) (named'.trans named) (marked'.trans marked) given',
        by rw [Stmt.bare, Stmt.bare, lexeme, same]⟩
  | .assign named marked given =>
      obtain ⟨name', _, rfl, named', lexeme, related⟩ := carries.cons related
      obtain ⟨mark', _, rfl, marked', -, related⟩ := carries.cons related
      rw [named, marked] at related
      obtain ⟨value', given', same⟩ := given.carry carries (fun _ => rfl) related
      exact ⟨_, .assign (named'.trans named) (marked'.trans marked) given',
        by rw [Stmt.bare, Stmt.bare, lexeme, same]⟩
  | .choice choice =>
      obtain ⟨value', choice', same⟩ := choice.carry carries (fun _ => rfl) related
      exact ⟨_, .choice choice', by rw [Stmt.bare, Stmt.bare, same]⟩
  | .expr start given =>
      obtain ⟨value', given', same⟩ := given.carry carries (fun _ => rfl) related
      exact ⟨_, .expr (mt (carries.startsChoice related) start) given',
        by rw [Stmt.bare, Stmt.bare, same]⟩
termination_by structural derived

theorem Statements.carry
    {tokens : List Token}
    {stmts : List Stmt}
    (derived : Statements tokens stmts)
    (carries : Carries rel)
    {outer : List Nat}
    {tokens' : List Token}
    (related : rel (0 :: outer) tokens tokens') :
    ∃ stmts', Statements tokens' stmts' ∧ Block.bare stmts' = Block.bare stmts := by
  match derived with
  | .nil =>
      obtain rfl := carries.nil related
      exact ⟨[], .nil, rfl⟩
  | .empty kind rest =>
      obtain ⟨semicolon', _, rfl, kind', -, related⟩ := carries.cons related
      rw [kind] at related
      obtain ⟨stmts', rest', same⟩ := rest.carry carries related
      exact ⟨stmts', .empty (kind'.trans kind) rest', same⟩
  | .last first =>
      obtain ⟨stmt', first', same⟩ := first.carry carries related
      exact ⟨_, .last first', by simp only [Block.bare, same]⟩
  | .closed first kind rest =>
      obtain ⟨tokens', _, rfl, part, more, -⟩ := carries.split related first.balanced
      obtain ⟨semicolon', _, rfl, kind', -, more⟩ := carries.cons more
      rw [kind] at more
      obtain ⟨stmt', first', same⟩ := first.carry carries part
      obtain ⟨stmts', rest', same'⟩ := rest.carry carries more
      exact ⟨_, .closed first' (kind'.trans kind) rest',
        by rw [Block.bare, Block.bare, same, same']⟩
  | .adjacent first brace ends rest =>
      obtain ⟨tokens', _, rfl, related, more, agree⟩ := carries.split related first.balanced
      obtain ⟨stmt', first', same⟩ := first.carry carries related
      obtain ⟨stmts', rest', same'⟩ := rest.carry carries more
      refine ⟨_, .adjacent first' (carries.endsInBrace related brace) ?_ rest',
        by rw [Block.bare, Block.bare, same, same']⟩
      intro next' heads'
      obtain ⟨next, heads⟩ := carries.exists_head? more heads'
      exact (agree rfl next heads next' heads').2 _ first (ends next heads)
termination_by structural derived

end

/-- Derivations are carried along alike tokens. -/
theorem carries_alikeFrom : Carries AlikeFrom where
  nil := AlikeFrom.eq_nil
  cons := AlikeFrom.uncons
  split {_ _ first _ _} alike balanced := by
    obtain ⟨first', second', split, front, behind, agree⟩ := alike.split_balanced balanced
    refine ⟨first', second', split, front, behind, fun none next heads next' heads' => ?_⟩
    have breaks := agree none next heads next' heads'
    refine ⟨breaks.mpr, fun _ _ ends => ?_⟩
    obtain ⟨_, heads'', kind⟩ := behind.head? heads'
    obtain rfl := Option.some.inj (heads.symm.trans heads'')
    rcases ends with choice | stops | broken
    · exact .inl (front.startsChoice_iff.mpr choice)
    · exact .inr (.inl (kind ▸ stops))
    · exact .inr (.inr (breaks.mp broken))

/-- Alike tokens stand for the same statements without positions. -/
theorem Statements.transport
    {tokens : List Token}
    {stmts : List Stmt}
    (derived : Statements tokens stmts)
    {outer : List Nat}
    {tokens' : List Token}
    (alike : AlikeFrom (0 :: outer) tokens tokens') :
    ∃ stmts', Statements tokens' stmts' ∧ Block.bare stmts' = Block.bare stmts :=
  derived.carry carries_alikeFrom alike

end Grammar

/-! ## Programs -/

/-- A token without its position. -/
abbrev Word := Kind × Text

namespace Token

/-- The kind and the lexeme of a token. -/
def word (token : Token) : Word :=
  (token.kind, token.lexeme)

/-- Token lists that agree in the kind and lexeme of every token and, after every
closing brace where no parenthesis is open inside the innermost brace around it, on
whether the next token is on a later line. -/
structure Alike (tokens tokens' : List Token) : Prop where
  words : tokens'.map Token.word = tokens.map Token.word
  breaks : ∀ (place : Nat) (brace next brace' next' : Token),
    tokens[place]? = some brace → tokens[place + 1]? = some next →
    tokens'[place]? = some brace' → tokens'[place + 1]? = some next' →
    brace.kind = .rightBrace → (nesting [0] (tokens.take (place + 1))).head? = some 0 →
    (brace.pos.line < next.pos.line ↔ brace'.pos.line < next'.pos.line)

variable {tokens tokens' : List Token}

/-- What holds at every place holds along the list. -/
theorem alikeFrom_of_places
    {opened : List Nat}
    (words : tokens'.map Token.word = tokens.map Token.word)
    (breaks : ∀ (place : Nat) (brace next brace' next' : Token),
      tokens[place]? = some brace → tokens[place + 1]? = some next →
      tokens'[place]? = some brace' → tokens'[place + 1]? = some next' →
      brace.kind = .rightBrace → (nesting opened (tokens.take (place + 1))).head? = some 0 →
      (brace.pos.line < next.pos.line ↔ brace'.pos.line < next'.pos.line)) :
    AlikeFrom opened tokens tokens' := by
  induction tokens generalizing opened tokens' with
  | nil =>
      obtain rfl := List.map_eq_nil_iff.mp words
      exact .nil
  | cons token tokens inductionHypothesis =>
      cases tokens' with
      | nil => cases words
      | cons token' tokens' =>
          obtain ⟨same, words⟩ := List.cons.inj words
          obtain ⟨kind, lexeme⟩ := Prod.mk.inj same
          refine .cons kind lexeme ?_ (inductionHypothesis words ?_)
          · intro brace ungrouped next heads next' heads'
            rw [List.head?_eq_getElem?] at heads heads'
            exact breaks 0 token next token' next' rfl heads rfl heads' brace ungrouped
          · intro place brace next brace' next'
            exact breaks (place + 1) brace next brace' next'

/-- Alike tokens are alike up to the end of the input. -/
theorem AlikeFrom.takeWhile
    {opened : List Nat}
    (alike : AlikeFrom opened tokens tokens') :
    AlikeFrom opened (tokens.takeWhile (·.kind ≠ .endOfInput))
      (tokens'.takeWhile (·.kind ≠ .endOfInput)) := by
  have heads_of_takeWhile {next : Token} {tokens : List Token}
      (heads : next ∈ (tokens.takeWhile (·.kind ≠ .endOfInput)).head?) :
      next ∈ tokens.head? := by
    rw [List.head?_takeWhile] at heads
    exact (Option.filter_eq_some_iff.mp heads).1
  induction alike with
  | nil => exact .nil
  | @cons _ token token' _ _ kind lexeme breaks _ inductionHypothesis =>
      by_cases ended : token.kind = .endOfInput
      · rw [List.takeWhile_cons_of_neg (by simpa using ended),
          List.takeWhile_cons_of_neg (by simpa using kind.trans ended)]
        exact .nil
      · rw [List.takeWhile_cons_of_pos (by simpa using ended),
          List.takeWhile_cons_of_pos (by simpa [kind] using ended)]
        refine .cons kind lexeme ?_ inductionHypothesis
        intro brace ungrouped next heads next' heads'
        exact breaks brace ungrouped next (heads_of_takeWhile heads) next'
          (heads_of_takeWhile heads')

end Token

/-- Layout matters only through line breaks after closing braces.  Let two token lists
agree in the kind and lexeme of every token and, after closing braces outside of
parentheses, on whether the next token is on a later line.  If the first has no syntax
error, then the second has none, and both stand for the same program without positions.
Run on bindings that are the same without positions, they give the same printed value or
the same fault, and the same printed bindings. -/
theorem layout_matters_only_after_braces
    {tokens tokens' : List Token}
    (alike : Token.Alike tokens tokens')
    (clean : (Program.ofTokens tokens).errors = []) :
    (Program.ofTokens tokens').errors = [] ∧
    Block.bare (Program.ofTokens tokens').program = Block.bare (Program.ofTokens tokens).program ∧
    ∀ session session' : Session, session.limit = session'.limit →
      session.machine.depth = session'.machine.depth →
      session.machine.scope.bare = session'.machine.scope.bare →
      let ended := session.run (Program.ofTokens tokens).program
      let ended' := session'.run (Program.ofTokens tokens').program
      ended.1.map Value.text = ended'.1.map Value.text ∧
        (∀ color, Console.bindingsText color ended.2.bindings =
          Console.bindingsText color ended'.2.bindings) ∧
        ended.2.machine.scope.bare = ended'.2.machine.scope.bare := by
  have derived := Parser.program_sound (.ofTokens tokens) rfl clean
  have body := (Token.alikeFrom_of_places alike.words alike.breaks).takeWhile
  obtain ⟨program', derived', same⟩ := derived.transport body
  have complete : Program.ofTokens tokens' = ⟨program', []⟩ :=
    Parser.program_complete derived' rfl
  rw [complete]
  refine ⟨rfl, same, fun session session' limit depth scope => ?_⟩
  obtain ⟨printed, after⟩ := Session.run_eq_of_bare limit depth scope same.symm
  exact ⟨printed, Scope.bindingsText_eq_of_bare after, after⟩

/-- A line break after a closing brace inside parentheses does not end the expression. -/
theorem layout_matters_only_after_braces_in_parentheses :
    let tokens (line : Int) : List Token :=
      [⟨.leftParen, "(", .start⟩, ⟨.ifWord, "if", .start⟩, ⟨.trueWord, "true", .start⟩,
        ⟨.leftBrace, "\x7b", .start⟩, ⟨.integer, "5", .start⟩, ⟨.rightBrace, "\x7d", .start⟩,
        ⟨.minus, "-", ⟨line, 1, 0⟩⟩, ⟨.integer, "3", .start⟩, ⟨.rightParen, ")", .start⟩]
    Token.Alike (tokens 1) (tokens 2) ∧ (Program.ofTokens (tokens 1)).errors = [] ∧
      (Program.ofTokens (tokens 2)).errors = [] ∧
      ((Session.start (.atMost 0)).run (Program.ofTokens (tokens 2)).program).1.map Value.text =
        .ok "2" := by
  intro tokens
  have grouped : ∀ place < 9, ((tokens 1)[place]?).map Token.kind = some .rightBrace →
      (Token.nesting [0] ((tokens 1).take (place + 1))).head? ≠ some 0 := by
    decide
  have alike : Token.Alike (tokens 1) (tokens 2) := by
    refine ⟨rfl, fun place brace next brace' next' found _ _ _ kind ungrouped => ?_⟩
    have inside : place < 9 := (List.getElem?_eq_some_iff.mp found).1
    exact absurd ungrouped (grouped place inside (by rw [found, ← kind]; rfl))
  have clean : (Program.ofTokens (tokens 1)).errors = [] := by decide +kernel
  have value : ((Session.start (.atMost 0)).run (Program.ofTokens (tokens 1)).program).1.map
      Value.text = .ok "2" := by
    decide +kernel
  obtain ⟨clean', -, runs⟩ := layout_matters_only_after_braces alike clean
  refine ⟨alike, clean, clean', ?_⟩
  rw [← (runs (.start (.atMost 0)) (.start (.atMost 0)) rfl rfl rfl).1]
  exact value

end Siren
