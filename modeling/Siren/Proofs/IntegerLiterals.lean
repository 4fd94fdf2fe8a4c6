import Siren.Proofs.Derivations
import Siren.Proofs.ExactArithmetic
import Siren.Proofs.IncompleteInput
import Siren.Proofs.NodePlaces
import Siren.Proofs.WordByWord

/-!
# Integers as statements

The lexer decides by the token before a minus sign whether the sign belongs to the digits
behind it.  Behind a semicolon it does.  Behind a closing brace it does not, since an
operator may follow there, even where the grammar ends the statement at the brace; then
the sign is an operator on the number behind it.  Either way an integer on a line of its
own is a statement that gives the integer, except behind a closing brace the least one,
whose digits on their own are out of range.
-/

namespace Siren

/-! ## Statements with one more behind them -/

namespace Grammar

/-- The last of the tokens is no semicolon. -/
def Unclosed (tokens : List Token) : Prop :=
  ∃ last ∈ tokens.getLast?, last.kind ≠ .semicolon

namespace Unclosed

variable {tokens : List Token}

theorem append (front : List Token) (unclosed : Unclosed tokens) : Unclosed (front ++ tokens) := by
  obtain ⟨last, ends, kind⟩ := unclosed
  refine ⟨last, ?_, kind⟩
  rw [List.getLast?_append, Option.mem_def.mp ends]
  rfl

theorem cons (token : Token) (unclosed : Unclosed tokens) : Unclosed (token :: tokens) :=
  unclosed.append [token]

theorem single {token : Token} (kind : token.kind ≠ .semicolon) : Unclosed [token] :=
  ⟨token, rfl, kind⟩

end Unclosed

theorem Braces.unclosed
    {tokens : List Token}
    {block : Block}
    (derived : Braces tokens block) :
    Unclosed tokens := by
  cases derived with
  | @block opening closing tokens _ _ _ closed =>
      have last : Unclosed [closing] := .single (by rw [closed]; decide)
      exact last.append (opening :: tokens)

mutual

/-- No expression ends in a semicolon. -/
theorem Expression.unclosed
    {grouped : Bool}
    {level : Level}
    {tokens : List Token}
    {expr : Expr}
    (derived : Expression grouped level tokens expr) :
    Unclosed tokens := by
  match derived with
  | .int kind _ => exact .single (by rw [kind]; decide)
  | .true kind => exact .single (by rw [kind]; decide)
  | .false kind => exact .single (by rw [kind]; decide)
  | .name kind => exact .single (by rw [kind]; decide)
  | .group _ _ closed =>
      have last : Unclosed [_] := .single (by rw [closed]; decide)
      exact (last.append _).cons _
  | .function _ _ _ _ _ block => exact (((block.unclosed.cons _).append _).cons _).cons _
  | .choice choice => exact Choice.unclosed choice
  | .call _ _ _ _ closed =>
      have last : Unclosed [_] := .single (by rw [closed]; decide)
      exact ((last.append _).cons _).append _
  | .sign _ inner => exact (Expression.unclosed inner).cons _
  | .binary _ _ _ second => exact ((Expression.unclosed second).cons _).append _
  | .tighter inner => exact Expression.unclosed inner
termination_by structural derived

theorem Choice.unclosed
    {grouped : Bool}
    {tokens : List Token}
    {expr : Expr}
    (derived : Choice grouped tokens expr) :
    Unclosed tokens := by
  match derived with
  | .choice _ _ block otherwise =>
      exact ((ElseArm.unclosed otherwise block.unclosed).append _).cons _
termination_by structural derived

theorem ElseArm.unclosed
    {grouped : Bool}
    {tokens front : List Token}
    {arm : Option Block}
    (derived : ElseArm grouped tokens arm)
    (first : Unclosed front) :
    Unclosed (front ++ tokens) := by
  match derived with
  | .absent =>
      rw [List.append_nil]
      exact first
  | .block _ block => exact (block.unclosed.cons _).append _
  | .chain _ choice => exact ((Choice.unclosed choice).cons _).append _
termination_by structural derived

end

theorem Statement.unclosed
    {tokens : List Token}
    {stmt : Stmt}
    (derived : Statement tokens stmt) :
    Unclosed tokens := by
  cases derived with
  | result _ given => exact given.unclosed.cons _
  | declare _ _ _ given => exact ((given.unclosed.cons _).cons _).cons _
  | assign _ _ given => exact (given.unclosed.cons _).cons _
  | choice choice => exact choice.unclosed
  | expr _ given => exact given.unclosed

/-- A statement may start at a token behind others: these end in a semicolon, or in a
closing brace on an earlier line, or there are none. -/
def Ended (tokens : List Token) (next : Token) : Prop :=
  ∀ last ∈ tokens.getLast?, last.kind = .semicolon ∨ BreaksLine tokens next

theorem Ended.of_suffix
    {tokens whole : List Token}
    {next : Token}
    (ended : Ended whole next)
    (suffix : tokens <:+ whole) :
    Ended tokens next := by
  obtain ⟨front, rfl⟩ := suffix
  intro last ends
  have same : (front ++ tokens).getLast? = tokens.getLast? := by
    rw [List.getLast?_append, Option.mem_def.mp ends]
    rfl
  rw [Ended, BreaksLine, same] at ended
  exact ended last ends

/-- A statement behind a statement that ends in a brace on an earlier line. -/
theorem Statement.adjacent
    {tokens others : List Token}
    {first : Token}
    {stmt stmt' : Stmt}
    (derived : Statement tokens stmt)
    (more : Statement (first :: others) stmt')
    (ended : Ended tokens first) :
    Statements (tokens ++ first :: others) [stmt, stmt'] := by
  -- No statement ends in a semicolon, so this one ends in a brace.
  obtain ⟨last, ends, kind⟩ := derived.unclosed
  have breaks : BreaksLine tokens first := (ended last ends).resolve_left kind
  obtain ⟨brace, ends, kind, -⟩ := id breaks
  refine .adjacent derived ⟨brace, ends, kind⟩ ?_ (.last more)
  rintro _ ⟨⟩
  exact .inr (.inr breaks)

/-- Statements with one more behind them. -/
theorem Statements.snoc
    {tokens others : List Token}
    {first : Token}
    {stmts : List Stmt}
    {stmt : Stmt}
    (derived : Statements tokens stmts)
    (more : Statement (first :: others) stmt)
    (ended : Ended tokens first) :
    Statements (tokens ++ first :: others) (stmts ++ [stmt]) := by
  match derived with
  | .nil => exact .last more
  | .empty kind rest => exact .empty kind (rest.snoc more (ended.of_suffix (List.suffix_cons _ _)))
  | .last statement => exact statement.adjacent more ended
  | .closed statement kind rest =>
      have behind := rest.snoc more
        (ended.of_suffix ((List.suffix_cons _ _).trans (List.suffix_append _ _)))
      rw [List.append_assoc]
      exact .closed statement kind behind
  | @Statements.adjacent _ [] _ _ statement brace ends rest =>
      obtain rfl := rest.eq_nil
      rw [List.append_nil] at ended ⊢
      exact statement.adjacent more ended
  | @Statements.adjacent _ (_ :: _) _ _ statement brace ends rest =>
      have behind := rest.snoc more (ended.of_suffix (List.suffix_append _ _))
      rw [List.append_assoc]
      exact .adjacent statement brace ends behind
termination_by structural derived

end Grammar

/-! ## Reading an integer -/

namespace Lexer

open Lexeme

/-- Where an operator may follow, a minus sign is one, whatever it is followed by. -/
theorem Yields.operatorMinus
    {last : Kind}
    (operator : last.expectsOperand = false)
    (rest : Text) :
    Yields last Kind.minus.name [Kind.minus.word] rest := by
  refine of_recognise (fun pos => ?_) rfl (by decide)
  show (if (true && last.expectsOperand && rest.head?.any Text.isDigit) = true then _ else none) =
    none
  rw [operator, Bool.and_false, Bool.false_and]
  rfl

/-- The tokens of a text on a line of its own are its words. -/
theorem Yields.body_line
    {last : Kind}
    {text : Text}
    {words : List Word}
    (yields : Yields last text words [])
    (pos : Position) :
    (body ⟨Text.lineFeed :: text, pos, last⟩).map Token.word = words ∧
      ∀ token ∈ body ⟨Text.lineFeed :: text, pos, last⟩, pos.line < token.pos.line := by
  obtain ⟨tokens, pos', read, spelled, oneLine, -⟩ := yields (pos.step Text.lineFeed)
  have ended : body ⟨[], pos', lastKind last words⟩ = [] := by
    rw [body_eq, next_eq]
    rfl
  rw [List.append_nil, ended, List.append_nil] at read
  rw [body_eq, next_blank rfl, ← body_eq, read]
  refine ⟨spelled, fun token member => ?_⟩
  rw [oneLine token member]
  exact Int.lt_succ pos.line

end Lexer

/-! ## What integers give -/

/-- An expression that gives an integer as a statement, in every session and without any
change to it. -/
def Expr.Gives (expr : Expr) (value : Int64) : Prop :=
  ∀ session : Session, session.exec (.expr expr) = (.ok (.value (.int value)), session)

namespace Expr

theorem Gives.of_eval
    {expr : Expr}
    {value : Int64}
    (eval : ∀ call machine, expr.eval call machine = (.ok (.value (.int value)), machine)) :
    expr.Gives value := by
  intro session
  have exec (call : Caller) : (Stmt.expr expr).exec call session.machine =
      (.ok (.value (.int value)), session.machine) := by
    rw [Stmt.exec]
    exact Eval.bind_of_ok (eval call session.machine) _
  rw [Session.exec, Session.perform, exec]

theorem gives_int (pos : Position) (value : Int64) : (Expr.int pos value).Gives value :=
  Gives.of_eval fun _ _ => rfl

/-- A sign before a number that is not negative gives the negative number. -/
theorem gives_negative
    (pos pos' : Position)
    {value : Int64}
    (natural : 0 ≤ value.toInt) :
    (Expr.unary pos .negate (.int pos' value)).Gives (-value) := by
  refine Gives.of_eval fun call machine => ?_
  have operand : (Expr.int pos' value).eval call machine = (.ok (.value (.int value)), machine) :=
    rfl
  rw [Expr.eval, Eval.onValue_of_value operand, Eval.ofExcept_value,
    UnaryOp.apply_negate_of_natural natural]
  rfl

end Expr

/-- Behind a token of a kind, the next line is read as a statement that gives an integer. -/
def Lexer.ReadsInteger (last : Kind) (text : Text) (value : Int64) : Prop :=
  ∀ pos, ∃ first others expr,
    body ⟨Text.lineFeed :: text, pos, last⟩ = first :: others ∧ pos.line < first.pos.line ∧
      Grammar.Statement (first :: others) (.expr expr) ∧ expr.Gives value

namespace Lexer

open Lexeme

/-- An integer that is read as one word is a literal. -/
theorem Yields.readsInteger
    {last : Kind}
    {value : Int64}
    (yields : Yields last (Text.ofInt value.toInt) [(.integer, Text.ofInt value.toInt)] []) :
    ReadsInteger last (Text.ofInt value.toInt) value := by
  intro pos
  obtain ⟨spelled, later⟩ := yields.body_line pos
  generalize body _ = tokens at spelled later ⊢
  obtain ⟨token, rfl, word⟩ := List.map_eq_singleton_iff.mp spelled
  obtain ⟨kind, lexeme⟩ := Prod.mk.inj word
  have inRange : token.lexeme.toInt64? = some value := by
    rw [lexeme, Text.toInt64?_ofInt]
  have literal : Grammar.Expression false .equality [token] (.int token.pos value) :=
    (Grammar.Expression.int kind inRange).weaken (by decide)
  have plain : ¬Grammar.StartsChoice [token] := by
    rintro ⟨_, ⟨⟩, choice⟩
    cases choice.symm.trans kind
  exact ⟨token, [], _, rfl, later token List.mem_cons_self, .expr plain literal,
    Expr.gives_int _ _⟩

/-- A sign and a number that are read as two words are an operator and its operand. -/
theorem Yields.readsNegative
    {last : Kind}
    {text : Text}
    {value : Int64}
    (yields : Yields last (45 :: text) [Kind.minus.word, (.integer, text)] [])
    (inRange : text.toInt64? = some value)
    (natural : 0 ≤ value.toInt) :
    ReadsInteger last (45 :: text) (-value) := by
  intro pos
  obtain ⟨spelled, later⟩ := yields.body_line pos
  generalize body _ = tokens at spelled later ⊢
  obtain ⟨sign, behind, rfl, word, spelled⟩ := List.map_eq_cons_iff.mp spelled
  obtain ⟨token, rfl, word'⟩ := List.map_eq_singleton_iff.mp spelled
  obtain ⟨kind, -⟩ := Prod.mk.inj word
  obtain ⟨kind', rfl⟩ := Prod.mk.inj word'
  have operand : Grammar.Expression false .sign [token] (.int token.pos value) :=
    (Grammar.Expression.int kind' inRange).weaken (by decide)
  have signed : Grammar.Sign sign.kind .negate := by
    rw [show sign.kind = .minus from kind]
    exact .negate
  have plain : ¬Grammar.StartsChoice [sign, token] := by
    rintro ⟨_, ⟨⟩, choice⟩
    cases choice.symm.trans kind
  exact ⟨sign, [token], _, rfl, later sign List.mem_cons_self,
    .expr plain ((Grammar.Expression.sign signed operand).weaken (by decide)),
    Expr.gives_negative _ _ natural⟩

/-- Behind every token an integer is read as an expression that gives it, except the least
one where an operator may follow. -/
theorem readsInteger
    {last : Kind}
    {value : Int64}
    (possible : last.expectsOperand = true ∨ value ≠ Int64.minValue) :
    ReadsInteger last (Text.ofInt value.toInt) value := by
  by_cases operand : last.expectsOperand = true
  · exact (Yields.integer operand value.toInt .nil).readsInteger
  · have operator := Bool.eq_false_iff.mpr operand
    cases equal : value.toInt with
    | ofNat magnitude =>
        have yields : Yields last (Text.ofInt value.toInt)
            [(.integer, Text.ofInt value.toInt)] [] := by
          rw [equal]
          exact .number magnitude .nil
        rw [← equal]
        exact yields.readsInteger
    | negSucc less =>
        have inside : value.toInt ≠ Int64.minValue.toInt :=
          mt Int64.toInt_inj.mp (possible.resolve_left operand)
        have lower := value.le_toInt
        rw [Int64.toInt_minValue, equal] at inside
        rw [equal] at lower
        have natural : 0 ≤ (Int64.ofInt (less + 1 : Nat)).toInt := by
          rw [Int64.toInt_ofInt_of_le (by omega) (by omega)]
          exact Int.natCast_nonneg _
        have negative : -Int64.ofInt (less + 1 : Nat) = value := by
          rw [← Int64.ofInt_neg, ← Int64.ofInt_toInt value, equal]
          rfl
        have number : Yields .minus (Text.ofNat (less + 1))
            [(.integer, Text.ofNat (less + 1))] [] := .number (less + 1) .nil
        have reads := ((Yields.operatorMinus operator _).append number).readsNegative
          (Text.toInt64?_ofNat (by omega)) natural
        rw [negative] at reads
        exact reads

/-- Where an operator may follow, the least integer is read as a sign and digits that are
out of range. -/
theorem exists_integer_outOfRange
    {last : Kind}
    (operator : last.expectsOperand = false)
    (pos : Position) :
    ∃ token ∈ body ⟨Text.lineFeed :: Text.ofInt Int64.minValue.toInt, pos, last⟩,
      token.kind = .integer ∧ token.lexeme.toInt64? = none := by
  have number : Yields .minus (Text.ofNat (2 ^ 63)) [(.integer, Text.ofNat (2 ^ 63))] [] :=
    .number (2 ^ 63) .nil
  have yields := (Yields.operatorMinus operator _).append number
  obtain ⟨spelled, -⟩ := yields.body_line pos
  rw [show Text.ofInt Int64.minValue.toInt = Kind.minus.name ++ Text.ofNat (2 ^ 63) from rfl]
  have member : (Kind.integer, Text.ofNat (2 ^ 63)) ∈ [Kind.minus.word] ++
      [(Kind.integer, Text.ofNat (2 ^ 63))] := List.mem_append_right _ List.mem_cons_self
  rw [← spelled] at member
  obtain ⟨token, present, word⟩ := List.mem_map.mp member
  obtain ⟨kind, lexeme⟩ := Prod.mk.inj word
  refine ⟨token, present, kind, ?_⟩
  rw [lexeme]
  decide +kernel

end Lexer

/-! ## Sources with an integer on one more line -/

theorem Tree.StandsAt.exists_toInt64?
    {token : Token}
    {tree : Tree}
    (stands : tree.StandsAt token)
    (kind : token.kind = .integer) :
    ∃ value, token.lexeme.toInt64? = some value := by
  cases tree with
  | expr node =>
      cases node with
      | int pos value => exact ⟨value, stands.2.2⟩
      | name pos name => cases stands.2.1.symm.trans kind
      | bool pos value => cases value <;> cases stands.2.symm.trans kind
      | unary pos op operand =>
          cases op with
          | negate | not => cases stands.2.symm.trans kind
          | other code => cases stands
      | function | branch => cases stands.2.symm.trans kind
      | binary | call | missing => cases stands
  | stmt node =>
      cases node with
      | assign pos name value => cases stands.2.1.symm.trans kind
      | declare | result => cases stands.2.symm.trans kind
      | expr | missing => cases stands

/-- No token of a source is on a later line than its end. -/
theorem Lexer.line_le_of_mem_body
    {source : Text}
    {token : Token}
    (member : token ∈ (Lexer.ofText source).body) :
    token.pos.line ≤ (Position.start.advance source).line := by
  have layout : Layout [] (Token.ofText source) source := Lexer.layout_tokenize rfl
  obtain ⟨gap, within, placed⟩ := layout.exists_behind (Lexer.body_subset_tokenize _ member)
  have place : Position.start.advance source = .behind source :=
    (Position.behind_append [] source).symm
  have counts := within.sublist.count_le Text.lineFeed
  rw [placed, place, Position.behind, Position.behind, List.nil_append]
  dsimp only
  omega

/-- The last token of a source, in front of the end of the input. -/
theorem Lexer.body_of_ofText
    {source : Text}
    {tokens : List Token}
    {stop : Token}
    (ends : Token.ofText source = tokens ++ [stop]) :
    (Lexer.ofText source).body = tokens := by
  have layout : Layout [] (Token.ofText source) source := Lexer.layout_tokenize rfl
  obtain ⟨words, equal, others⟩ := layout.exists_stop
  obtain ⟨rfl, -⟩ := List.append_inj' (ends.symm.trans equal) rfl
  rw [← Cursor.rest_ofText, equal]
  exact Cursor.rest_ofTokens others rfl

namespace Program

variable {source : Text} {tokens : List Token} {last stop : Token} {value : Int64}

/-- An integer on one more line is one more statement. -/
theorem ofText_integer_line
    (clean : (Program.ofText source).errors = [])
    (ends : Token.ofText source = tokens ++ [last, stop])
    (closes : last.kind = .semicolon ∨ last.kind = .rightBrace)
    (possible : last.kind.expectsOperand = true ∨ value ≠ Int64.minValue) :
    ∃ expr, Program.ofText (source ++ [Text.lineFeed] ++ Text.ofInt value.toInt) =
      ⟨(Program.ofText source).program ++ [.expr expr], []⟩ ∧ expr.Gives value := by
  rw [List.append_cons tokens last [stop]] at ends
  have body := Lexer.body_of_ofText ends
  have final : (Lexer.ofText source).lastOfBody = last.kind := by
    rw [Lexer.lastOfBody, body, List.getLast?_concat]
    rfl
  obtain ⟨first, others, expr, line, later, statement, gives⟩ :=
    Lexer.readsInteger possible (Position.start.advance source)
  have ended : Grammar.Ended (Lexer.ofText source).body first := by
    intro token same
    rw [Grammar.BreaksLine]
    have within := Lexer.line_le_of_mem_body (List.mem_of_getLast? same)
    rw [body, List.getLast?_concat] at same ⊢
    cases same
    exact closes.imp id fun brace => ⟨last, rfl, brace, Int.lt_of_le_of_lt within later⟩
  have derived := Parser.program_sound (.ofTokens (Token.ofText source)) rfl clean
  have whole := derived.snoc statement ended
  obtain ⟨stop', equal⟩ := Cursor.exists_extend_ofText source (Text.ofInt value.toInt)
  rw [final, line] at equal
  refine ⟨expr, ?_, gives⟩
  rw [Program.ofText, Program.ofTokens, equal]
  exact Parser.program_complete whole rfl

/-- The least integer is no statement behind a closing brace. -/
theorem errors_ne_nil_of_least
    (ends : Token.ofText source = tokens ++ [last, stop])
    (brace : last.kind = .rightBrace) :
    (Program.ofText (source ++ [Text.lineFeed] ++ Text.ofInt Int64.minValue.toInt)).errors ≠ [] := by
  intro clean
  rw [List.append_cons tokens last [stop]] at ends
  have final : (Lexer.ofText source).lastOfBody.expectsOperand = false := by
    rw [Lexer.lastOfBody, Lexer.body_of_ofText ends, List.getLast?_concat]
    exact congrArg Kind.expectsOperand brace
  obtain ⟨token, present, kind, outOfRange⟩ :=
    Lexer.exists_integer_outOfRange final (Position.start.advance source)
  obtain ⟨stop', equal⟩ := Cursor.exists_extend_ofText source (Text.ofInt Int64.minValue.toInt)
  have derived := Parser.program_sound _ rfl clean
  rw [equal] at derived
  obtain ⟨tree, -, stands⟩ := derived.placed.marks.exists_tree
    (List.mem_append_right _ present) (kind ▸ by decide)
  obtain ⟨value, inRange⟩ := stands.exists_toInt64? kind
  cases inRange.symm.trans outOfRange

end Program

/-- Integers can be written wherever a statement may start, but for the least one behind
a closing brace.  Take a source without syntax errors whose last token is a semicolon or a
closing brace, and any integer in decimal on one more line.  The whole has no syntax errors,
unless the token is a brace and the integer the least one.  Then its statements are those of
the source and one more, an expression that gives the integer in every session. -/
theorem integers_are_statements
    {source : Text}
    (clean : (Program.ofText source).errors = [])
    {tokens : List Token}
    {last stop : Token}
    (ends : Token.ofText source = tokens ++ [last, stop])
    (closes : last.kind = .semicolon ∨ last.kind = .rightBrace)
    (value : Int64) :
    let whole := Program.ofText (source ++ [Text.lineFeed] ++ Text.ofInt value.toInt)
    (whole.errors = [] ↔ ¬(last.kind = .rightBrace ∧ value = Int64.minValue)) ∧
    (whole.errors = [] → ∃ expr, whole.program = (Program.ofText source).program ++ [.expr expr] ∧
      ∀ session : Session, session.exec (.expr expr) = (.ok (.value (.int value)), session)) := by
  intro whole
  have fails : whole.errors = [] → ¬(last.kind = .rightBrace ∧ value = Int64.minValue) := by
    rintro clean' ⟨brace, rfl⟩
    exact Program.errors_ne_nil_of_least ends brace clean'
  have reads (other : ¬(last.kind = .rightBrace ∧ value = Int64.minValue)) :
      ∃ expr, whole = ⟨(Program.ofText source).program ++ [.expr expr], []⟩ ∧ expr.Gives value := by
    refine Program.ofText_integer_line clean ends closes ?_
    rcases closes with semicolon | brace
    · exact .inl (semicolon ▸ rfl)
    · exact .inr fun least => other ⟨brace, least⟩
  refine ⟨⟨fails, fun other => ?_⟩, fun clean' => ?_⟩
  · obtain ⟨expr, equal, -⟩ := reads other
    exact congrArg Parser.Result.errors equal
  · obtain ⟨expr, equal, gives⟩ := reads (fails clean')
    exact ⟨expr, congrArg Parser.Result.program equal, gives⟩

/-- Behind a semicolon the least integer is a statement too. -/
theorem integers_are_statements_least :
    let source : Text := "let a = 1;"
    (Program.ofText source).errors = [] ∧
      (Program.ofText (source ++ [Text.lineFeed] ++ Text.ofInt Int64.minValue.toInt)).errors = [] := by
  intro source
  have clean : (Program.ofText source).errors = [] := by decide +kernel
  have ends : Token.ofText source = [⟨.letWord, "let", ⟨1, 1, 0⟩⟩, ⟨.identifier, "a", ⟨1, 5, 4⟩⟩,
      ⟨.assign, "=", ⟨1, 7, 6⟩⟩, ⟨.integer, "1", ⟨1, 9, 8⟩⟩] ++
        [⟨.semicolon, ";", ⟨1, 10, 9⟩⟩, .endAt ⟨1, 11, 10⟩] := by decide +kernel
  have written := integers_are_statements clean ends (.inl rfl) Int64.minValue
  exact ⟨clean, written.1.mpr fun brace => nomatch brace.1⟩

/-- Behind a closing brace it is none: the sign is an operator there, and the number on its
own is out of range. -/
theorem least_integer_fails_behind_brace :
    let source : Text := "if true \x7b 1 \x7d"
    (Program.ofText source).errors = [] ∧
      (Token.ofText source).reverse.tail.head?.map (·.kind) = some .rightBrace ∧
      (Program.ofText (source ++ [Text.lineFeed] ++ Text.ofInt (-2 ^ 63))).errors =
        [⟨⟨2, 2, 15⟩, .outOfRange "9223372036854775808", false⟩] := by
  intro source
  refine ⟨?_, ?_, ?_⟩
  · decide +kernel
  · decide +kernel
  · decide +kernel

end Siren
