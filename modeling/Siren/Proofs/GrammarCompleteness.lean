import Siren.Proofs.GrammarSoundness

/-!
# The parser reads all that the grammar allows

Tokens that stand in the grammar for a tree are read to that tree.  An
expression is followed through the loop of operators: reading it above a level
comes to the loop behind it, with the expression as its left operand.  The
conditions on what follows are those of the soundness proof.  Together they
make the parser and the grammar agree.
-/

namespace Siren

/-! ## Passing tokens -/

namespace Cursor

namespace Passes

variable {start next : Cursor} {tokens : List Token} {token : Token}

theorem eq_of_nil (passes : start.Passes [] next) : next = start := by
  obtain ⟨rest, prev, stop, parens⟩ := passes
  obtain ⟨prev', rest', stop', parens'⟩ := start
  obtain ⟨prev'', rest'', stop'', parens''⟩ := next
  simp_all

/-- The first token passed is the first one ahead. -/
theorem uncons (passes : start.Passes (token :: tokens) next) :
    ∃ prev rest stop parens, start = ⟨prev, token :: rest, stop, parens⟩ ∧
      Passes ⟨some token, rest, stop, parens⟩ tokens next := by
  obtain ⟨prev, rest, stop, parens⟩ := start
  refine ⟨prev, tokens ++ next.rest, stop, parens, ?_, rfl, ?_, passes.stop, passes.parens⟩
  · have equal : rest = token :: (tokens ++ next.rest) := passes.rest
    rw [equal]
  · rw [passes.prev]
    cases tokens with
    | nil => rfl
    | cons first others => simp [List.getLast?_cons]

theorem kind_eq (passes : start.Passes (token :: tokens) next) : start.kind = token.kind := by
  rw [kind, passes.current_eq rfl]

/-- A token of the kind wanted is read. -/
theorem expect
    {wanted : Kind}
    (passes : start.Passes (token :: tokens) next)
    (kind : token.kind = wanted) :
    ∃ after, (start.expect wanted).run = .ok (token, after) ∧ after.Passes tokens next := by
  obtain ⟨prev, rest, stop, parens, rfl, behind⟩ := passes.uncons
  refine ⟨_, ?_, behind⟩
  rw [run_expect_cons, if_pos kind]

theorem enter
    {prev : Option Token} {rest : List Token} {stop : Position} {parens : Nat}
    (passes : Passes ⟨prev, rest, stop, parens⟩ tokens next) :
    Passes ⟨prev, rest, stop, parens + 1⟩ tokens next.enter where
  rest := passes.rest
  prev := passes.prev
  stop := passes.stop
  parens := congrArg (· + 1) passes.parens

end Passes

theorem leave_enter (cursor : Cursor) : cursor.enter.leave = cursor := rfl

theorem stops_of_ofKind?_eq_none
    {cursor : Cursor}
    (level : Level)
    (none : Continuation.ofKind? cursor.kind = none) :
    cursor.Stops level := by
  intro continuation found
  rw [none] at found
  cases found

/-- Where nothing above a level follows, the loop ends. -/
theorem Stops.run_continuations
    {cursor : Cursor}
    {level : Level}
    (stops : cursor.Stops level)
    (left : Expr) :
    (Parser.continuations level left cursor).run = .ok (left, cursor) := by
  obtain ⟨prev, rest, stop, parens⟩ := cursor
  cases rest with
  | nil => exact Parser.run_continuations_nil level left prev stop parens
  | cons token rest =>
      rw [Parser.run_continuations_cons]
      cases found : Continuation.ofKind? token.kind with
      | none => rfl
      | some continuation =>
          have ends := stops continuation found
          dsimp only
          rw [if_pos (by simpa using ends)]

/-- Where a statement ends, nothing can follow its expression. -/
theorem stops_of_endsBefore
    {start next : Cursor}
    {tokens : List Token}
    (passes : start.Passes tokens next)
    (nonempty : tokens ≠ [])
    (ungrouped : start.grouped = false)
    (ends : Grammar.EndsBefore tokens next.current) :
    Grammar.StartsChoice tokens ∨ next.Stops .lowest := by
  rcases ends with choice | stays | breaks
  · exact .inl choice
  · right
    intro continuation found
    exact absurd ((Grammar.goesOn_iff _).mpr ⟨continuation, found⟩) stays
  · right
    intro continuation found
    exact .inr ((passes.endsLine_iff nonempty).mpr ⟨ungrouped, breaks⟩)

end Cursor

namespace Grammar.Infix

/-- Before an operator an operand of its own level stops. -/
theorem stops
    {level : Level}
    {cursor : Cursor}
    {op : BinaryOp}
    (listed : Infix level cursor.kind op) :
    cursor.Stops level := by
  intro continuation found
  rw [(infix_iff level cursor.kind op).mp listed] at found
  obtain rfl := Option.some.inj found
  exact .inl (Nat.le_refl level)

theorem kind_ne_elseWord
    {level : Level}
    {kind : Kind}
    {op : BinaryOp}
    (listed : Infix level kind op) :
    kind ≠ .elseWord := by
  rintro rfl
  cases listed

end Grammar.Infix

namespace Parser

open Grammar

/-! ## Parameters -/

/-- Distinct names that were not seen are read as parameters. -/
theorem param_complete
    {seen names : List Text}
    {tokens : List Token}
    {closing : Token}
    {start next : Cursor}
    (derived : Parameters tokens names)
    (distinct : names.Nodup)
    (fresh : ∀ name ∈ names, name ∉ seen)
    (closed : closing.kind = .rightParen)
    (passes : start.Passes (tokens ++ [closing]) next) :
    (param seen start).run = .ok (names, next) := by
  induction derived generalizing seen start with
  | one kind =>
      have unseen := fresh _ List.mem_cons_self
      rw [← passes.current_eq rfl] at unseen
      obtain ⟨between, reads, passes⟩ := passes.expect kind
      obtain ⟨after, closes, passes'⟩ := passes.expect closed
      rw [run_param, if_neg unseen, reads, Run.andThen_ok, run_moreParams,
        if_pos (passes.kind_eq.trans closed), closes, passes'.eq_of_nil]
      rfl
  | more kind separated rest inductionHypothesis =>
      have unseen := fresh _ List.mem_cons_self
      rw [← passes.current_eq rfl] at unseen
      obtain ⟨between, reads, passes⟩ := passes.expect kind
      obtain ⟨after, separates, passes'⟩ := passes.expect separated
      obtain ⟨first, distinct⟩ := List.nodup_cons.mp distinct
      rw [run_param, if_neg unseen, reads, Run.andThen_ok, run_moreParams,
        if_neg (by simp [passes.kind_eq, separated]), separates, Run.andThen_ok,
        inductionHypothesis distinct ?_ passes', Run.map_ok]
      intro name member listed
      rcases List.mem_cons.mp listed with rfl | earlier
      · exact first member
      · exact fresh name (List.mem_cons_of_mem _ member) earlier

theorem params_complete
    {names : List Text}
    {tokens : List Token}
    {closing : Token}
    {start next : Cursor}
    (derived : ParameterList tokens names)
    (distinct : names.Nodup)
    (closed : closing.kind = .rightParen)
    (passes : start.Passes (tokens ++ [closing]) next) :
    (params start).run = .ok (names, next) := by
  cases derived with
  | none =>
      obtain ⟨after, closes, passes'⟩ := Cursor.Passes.expect passes closed
      rw [run_params, if_pos (passes.kind_eq.trans closed), closes, passes'.eq_of_nil]
      rfl
  | some listed =>
      have opens : start.kind = .identifier := by
        cases listed with
        | one kind => exact passes.kind_eq.trans kind
        | more kind _ _ => exact passes.kind_eq.trans kind
      rw [run_params, if_neg (by simp [opens])]
      exact param_complete listed distinct (by simp) closed passes

/-! ## Statements in a row -/

/-- Statements are read one after the other up to a token that closes them. -/
inductive Reads (closing : Kind) : Cursor → List Stmt → Cursor → Prop where
  | stop {cursor : Cursor} (kind : cursor.skipSemicolons.kind = closing) :
      Reads closing cursor [] cursor.skipSemicolons
  | step {cursor between next last : Cursor} {stmt : Stmt} {stmts : List Stmt}
      (inside : cursor.skipSemicolons.kind ≠ .rightBrace)
      (more : cursor.skipSemicolons.kind ≠ .endOfInput)
      (reads : (statement cursor.skipSemicolons).run = .ok (stmt, between))
      (ends : (endStatement closing between).run = .ok ((), next))
      (rest : Reads closing next stmts last) :
      Reads closing cursor (stmt :: stmts) last

/-- Semicolons ahead of statements do not count. -/
theorem Reads.of_skipSemicolons_eq
    {closing : Kind}
    {cursor cursor' last : Cursor}
    {stmts : List Stmt}
    (reads : Reads closing cursor stmts last)
    (equal : cursor'.skipSemicolons = cursor.skipSemicolons) :
    Reads closing cursor' stmts last := by
  cases reads with
  | stop kind =>
      rw [← equal] at kind ⊢
      exact .stop kind
  | step inside more reads ends rest =>
      rw [← equal] at inside more reads
      exact .step inside more reads ends rest

/-- A statement can end before a semicolon, before the token that closes the
statements, and after a closing brace. -/
theorem endStatement_complete
    {closing : Kind}
    {cursor : Cursor}
    (ends : cursor.kind = .semicolon ∨ cursor.kind = closing ∨
      cursor.follows .rightBrace = true) :
    ∃ next, (endStatement closing cursor).run = .ok ((), next) ∧
      next.skipSemicolons = cursor.skipSemicolons := by
  rw [run_endStatement]
  by_cases semicolon : cursor.kind = .semicolon
  · obtain ⟨prev, rest, stop, parens⟩ := cursor
    cases rest with
    | nil => cases semicolon
    | cons token rest =>
        have kind : token.kind = .semicolon := semicolon
        refine ⟨⟨some token, rest, stop, parens⟩, ?_, ?_⟩
        · rw [if_pos semicolon, Cursor.run_expect_cons, if_pos kind]
          rfl
        · exact (Cursor.skipSemicolons_cons prev rest stop parens kind).symm
  · refine ⟨cursor, ?_, rfl⟩
    have ends := ends.resolve_left semicolon
    rw [if_neg semicolon, if_pos (by simpa using ends)]

/-- One more statement is read in front of others. -/
theorem Reads.cons
    {closing : Kind}
    {start between last : Cursor}
    {stmt : Stmt}
    {stmts : List Stmt}
    (starts : StartsStatement start.kind)
    (reads : (statement start).run = .ok (stmt, between))
    (ends : between.kind = .semicolon ∨ between.kind = closing ∨
      between.follows .rightBrace = true)
    (rest : Reads closing between stmts last) :
    Reads closing start (stmt :: stmts) last := by
  have apart (kind : Kind) (other : ¬StartsStatement kind) : start.kind ≠ kind :=
    fun equal => other (equal ▸ starts)
  have skipped : start.skipSemicolons = start :=
    Cursor.skipSemicolons_of_kind_ne
      (apart .semicolon (by simp [StartsStatement, StartsExpression]))
  obtain ⟨next, ends, equal⟩ := endStatement_complete ends
  refine .step ?_ ?_ (by rw [skipped]; exact reads) ends (rest.of_skipSemicolons_eq equal)
  · rw [skipped]
    exact apart .rightBrace (by simp [StartsStatement, StartsExpression])
  · rw [skipped]
    exact apart .endOfInput (by simp [StartsStatement, StartsExpression])

theorem Reads.nil
    {closing : Kind}
    {last : Cursor}
    (kind : last.kind = closing)
    (closing_ne : closing ≠ .semicolon) :
    Reads closing last [] last := by
  have skipped : last.skipSemicolons = last :=
    Cursor.skipSemicolons_of_kind_ne (kind ▸ closing_ne)
  have stop : Reads closing last [] last.skipSemicolons := .stop (by rw [skipped, kind])
  rwa [skipped] at stop

/-- The statements of a block are read up to its closing brace. -/
theorem Reads.run_statements
    {cursor last next : Cursor}
    {stmts : List Stmt}
    {token : Token}
    (reads : Reads .rightBrace cursor stmts last)
    (closes : (last.expect .rightBrace).run = .ok (token, next)) :
    (statements cursor).run = .ok (stmts, next) := by
  induction reads with
  | stop kind =>
      rw [Parser.run_statements, if_pos (by simp [kind]), closes, Run.map_ok]
  | step inside more reads ends rest inductionHypothesis =>
      rw [Parser.run_statements, if_neg (by simp [inside, more]), reads, Run.andThen_ok, ends,
        Run.andThen_ok, inductionHypothesis closes, Run.map_ok]

/-- The statements of a program are read up to the end of the input. -/
theorem Reads.program_eq
    {cursor last : Cursor}
    {stmts : List Stmt}
    (reads : Reads .endOfInput cursor stmts last)
    (ended : last.rest = []) :
    program cursor = ⟨stmts, []⟩ := by
  induction reads with
  | stop kind => rw [Parser.program_eq, if_pos ended]
  | @step cursor between next last stmt stmts inside more reads ends rest inductionHypothesis =>
      have nonempty : cursor.skipSemicolons.rest ≠ [] := by
        intro none
        exact more (by rw [Cursor.kind, Cursor.current, none]; rfl)
      rw [Parser.program_eq, if_neg nonempty, run_closedStatement, reads, Run.andThen_ok, ends,
        Run.map_ok]
      simp only [inductionHypothesis ended]

/-- A statement has ended before what is ahead of a cursor. -/
structure EndsAt (statement : List Token) (next : Cursor) : Prop where
  stops : StartsChoice statement ∨ next.Stops .lowest
  kind_ne_elseWord : next.kind ≠ .elseWord
  kind_ne_assign : next.kind ≠ .assign

theorem EndsAt.stops_of_head
    {word : Token}
    {tokens : List Token}
    {next : Cursor}
    {kind : Kind}
    (ends : EndsAt (word :: tokens) next)
    (head : word.kind = kind)
    (other : kind ≠ .ifWord) :
    next.Stops .lowest := by
  refine ends.stops.resolve_left ?_
  rintro ⟨first, heads, choice⟩
  obtain rfl := Option.some.inj heads
  exact other (head.symm.trans choice)

/-- Every statement ends before a semicolon, a closing brace and the end of the
input. -/
theorem EndsAt.of_kind
    {next : Cursor}
    (tokens : List Token)
    (kind : next.kind = .semicolon ∨ next.kind = .rightBrace ∨ next.kind = .endOfInput) :
    EndsAt tokens next := by
  have none : Continuation.ofKind? next.kind = none := by
    rcases kind with kind | kind | kind <;> rw [kind] <;> rfl
  refine ⟨.inr (Cursor.stops_of_ofKind?_eq_none _ none), ?_, ?_⟩
  · rcases kind with kind | kind | kind <;> simp [kind]
  · rcases kind with kind | kind | kind <;> simp [kind]

/-- A statement ends before the statements that the grammar allows behind it. -/
theorem EndsAt.of_statements
    {start next last : Cursor}
    {tokens tokens' : List Token}
    {stmts : List Stmt}
    (passes : start.Passes tokens next)
    (nonempty : tokens ≠ [])
    (ungrouped : start.grouped = false)
    (rest : Statements tokens' stmts)
    (ends : ∀ token ∈ tokens'.head?, EndsBefore tokens token)
    (passes' : next.Passes tokens' last)
    (closes : last.kind = .rightBrace ∨ last.kind = .endOfInput) :
    EndsAt tokens next := by
  cases tokens' with
  | nil =>
      obtain rfl := passes'.eq_of_nil
      exact .of_kind tokens (.inr closes)
  | cons token others =>
      have head := rest.head rfl
      have ends := ends token rfl
      rw [← passes'.current_eq rfl] at head ends
      refine ⟨Cursor.stops_of_endsBefore passes nonempty ungrouped ends, ?_, ?_⟩
      · intro kind
        rw [← Cursor.kind, kind] at head
        simp [StartsStatement, StartsExpression] at head
      · intro kind
        rw [← Cursor.kind, kind] at head
        simp [StartsStatement, StartsExpression] at head

/-- An expression that is no choice is read as a statement.  If a mark of
assignment followed its first name, the expression would end there. -/
theorem run_statement_of_expr
    {start next : Cursor}
    {tokens : List Token}
    {value : Expr}
    (plain : ¬StartsChoice tokens)
    (head : ∃ first rest, tokens = first :: rest ∧ StartsExpression first.kind)
    (passes : start.Passes tokens next)
    (reads : (expr .lowest start).run = .ok (value, next))
    (kind_ne_assign : next.kind ≠ .assign) :
    (statement start).run = .ok (.expr value, next) := by
  obtain ⟨first, others, rfl, starts⟩ := head
  obtain ⟨prev, rest, stop, parens, rfl, _⟩ := passes.uncons
  rw [run_statement_cons]
  split
  · rename_i kind
    simp [StartsExpression, kind] at starts
  · rename_i kind
    simp [StartsExpression, kind] at starts
  · rename_i kind
    cases rest with
    | nil => rw [reads, Run.map_ok]
    | cons mark rest =>
        dsimp only
        split
        · rename_i marked
          simp only [run_expr, run_operand_cons, kind, Run.andThen_ok, run_continuations_cons,
            marked, Continuation.ofKind?] at reads
          cases reads
          exact absurd marked kind_ne_assign
        · rw [reads, Run.map_ok]
  · rename_i kind
    exact absurd ⟨first, rfl, kind⟩ plain
  · rw [reads, Run.map_ok]

theorem starts_of_statement
    {start next : Cursor}
    {tokens : List Token}
    {stmt : Stmt}
    (derived : Statement tokens stmt)
    (passes : start.Passes tokens next) :
    StartsStatement start.kind := by
  obtain ⟨first, others, rfl, starts⟩ := derived.head
  exact passes.kind_eq ▸ starts

/-! ## Expressions, blocks and statements -/

theorem run_operand_sign
    {prev : Option Token} {token : Token} {rest : List Token} {stop : Position} {parens : Nat}
    {op : UnaryOp}
    (sign : Sign token.kind op) :
    (operand ⟨prev, token :: rest, stop, parens⟩).run =
      (expr .sign ⟨some token, rest, stop, parens⟩).run.map (.unary token.pos op) := by
  rw [run_operand_cons]
  generalize token.kind = kind at sign
  cases sign with
  | negate => rfl
  | not => rfl

theorem lt_of_min_succ_le
    {level level' : Level}
    (above : min (level + 1) .sign ≤ level')
    (below : level' < .sign) :
    level < level' := by
  rcases Nat.le_total (level + 1) Level.sign with le | le
  · rwa [Nat.min_eq_left le] at above
  · rw [Nat.min_eq_right le] at above
    exact absurd below (Nat.not_lt.mpr above)

section Loop

variable {level : Level} {prev : Option Token} {token : Token} {rest : List Token}
  {stop : Position} {parens : Nat}

/-- Where an expression does not end with its line, the loop goes on with a
call. -/
theorem run_continuations_call
    (left : Expr)
    (opened : token.kind = .leftParen)
    (above : level < .call)
    (goesOn : ¬Cursor.endsLine ⟨prev, token :: rest, stop, parens⟩ = true) :
    (continuations level left ⟨prev, token :: rest, stop, parens⟩).run =
      ((args ⟨some token, rest, stop, parens + 1⟩).run.mapCursor Cursor.leave).andThen
        fun args after => (continuations level (.call left args) after).run := by
  rw [run_continuations_cons, ofKind?_eq_arguments.mpr opened]
  exact if_neg (by simp [Continuation.level, Nat.not_le.mpr above, goesOn])

/-- Where an expression does not end with its line, the loop goes on with an
operator above its level. -/
theorem run_continuations_infix
    {level' : Level}
    {op : BinaryOp}
    (left : Expr)
    (listed : Infix level' token.kind op)
    (above : level < level')
    (goesOn : ¬Cursor.endsLine ⟨prev, token :: rest, stop, parens⟩ = true) :
    (continuations level left ⟨prev, token :: rest, stop, parens⟩).run =
      (expr level' ⟨some token, rest, stop, parens⟩).run.andThen
        fun right after => (continuations level (.binary left op right) after).run := by
  rw [run_continuations_cons, (infix_iff level' token.kind op).mp listed]
  exact if_neg (by simp [Continuation.level, Nat.not_le.mpr above, goesOn])

end Loop

/-- Tokens between braces start with the opening one. -/
theorem kind_of_braces
    {start next : Cursor}
    {tokens : List Token}
    {block : Block}
    (derived : Braces tokens block)
    (passes : start.Passes tokens next) :
    start.kind = .leftBrace := by
  cases derived with
  | block opened _ _ => exact passes.kind_eq.trans opened

theorem stops_of_braces
    {start next : Cursor}
    {tokens : List Token}
    {block : Block}
    (derived : Braces tokens block)
    (passes : start.Passes tokens next)
    (level : Level) :
    start.Stops level :=
  Cursor.stops_of_ofKind?_eq_none level (by rw [kind_of_braces derived passes]; rfl)

theorem kind_ne_rightParen_of_arguments
    {start next : Cursor}
    {tokens tokens' : List Token}
    {args : List Expr}
    (derived : Arguments tokens args)
    (passes : start.Passes (tokens ++ tokens') next) :
    start.kind ≠ .rightParen := by
  have starts : StartsExpression start.kind := by
    cases derived with
    | one only =>
        obtain ⟨first, others, rfl, starts⟩ := only.head
        exact passes.kind_eq ▸ starts
    | more first _ _ =>
        obtain ⟨first, others, rfl, starts⟩ := first.head
        exact passes.kind_eq ▸ starts
  intro kind
  simp [StartsExpression, kind] at starts

mutual

/-- Reading an expression above a level comes to the loop behind it. -/
theorem expression_complete
    {grouped : Bool}
    {level' : Level}
    {tokens : List Token}
    {value : Expr}
    {start next : Cursor}
    (derived : Expression grouped level' tokens value)
    (level : Level)
    (bound : level ≤ .sign)
    (above : min (level + 1) .sign ≤ level')
    (passes : start.Passes tokens next)
    (around : start.grouped = grouped)
    (stops : next.Stops level')
    (ended : next.kind ≠ .elseWord) :
    (expr level start).run = (continuations level value next).run := by
  match derived, above, passes, stops with
  | .int kind inRange, _, passes, _ =>
      obtain ⟨prev, rest, stop, parens, rfl, behind⟩ := passes.uncons
      obtain rfl := behind.eq_of_nil
      simp only [run_expr, run_operand_cons, kind, inRange, Run.andThen_ok]
  | .true kind, _, passes, _ =>
      obtain ⟨prev, rest, stop, parens, rfl, behind⟩ := passes.uncons
      obtain rfl := behind.eq_of_nil
      simp only [run_expr, run_operand_cons, kind, Run.andThen_ok]
  | .false kind, _, passes, _ =>
      obtain ⟨prev, rest, stop, parens, rfl, behind⟩ := passes.uncons
      obtain rfl := behind.eq_of_nil
      simp only [run_expr, run_operand_cons, kind, Run.andThen_ok]
  | .name kind, _, passes, _ =>
      obtain ⟨prev, rest, stop, parens, rfl, behind⟩ := passes.uncons
      obtain rfl := behind.eq_of_nil
      simp only [run_expr, run_operand_cons, kind, Run.andThen_ok]
  | .group kind inner closed, _, passes, _ =>
      obtain ⟨prev, rest, stop, parens, rfl, behind⟩ := passes.uncons
      obtain ⟨between, inside, closes⟩ := behind.enter.split
      have stops : between.Stops .lowest :=
        Cursor.stops_of_ofKind?_eq_none _ (by rw [closes.kind_eq, closed]; rfl)
      have reads := (expression_complete inner .lowest (by decide) (by decide) inside
        rfl (stops.mono (by decide)) (by simp [closes.kind_eq, closed])).trans
          (stops.run_continuations _)
      obtain ⟨after, closes, passes'⟩ := closes.expect closed
      obtain rfl := passes'.eq_of_nil
      rw [run_expr, run_operand_cons]
      simp only [kind, reads, closes, Run.andThen_ok, Run.map_ok, Run.mapCursor_ok,
        Cursor.leave_enter]
  | .function kind opened listed distinct closed block, _, passes, _ =>
      obtain ⟨prev, rest, stop, parens, rfl, behind⟩ := passes.uncons
      obtain ⟨inside, opens, behind⟩ := behind.expect opened
      rw [List.append_cons] at behind
      obtain ⟨between, listing, behind⟩ := behind.split
      have params := params_complete listed distinct closed listing
      have body := braces_complete block behind
      rw [run_expr, run_operand_cons]
      simp only [kind, run_function, opens, params, body, Run.andThen_ok, Run.map_ok]
  | .choice choice, _, passes, _ =>
      obtain ⟨prev, word, rest, stop, parens, rfl, kind, reads⟩ :=
        choice_complete choice passes around ended
      rw [run_expr, run_operand_cons]
      simp only [kind, reads, Run.andThen_ok]
  | .call called opened sameLine listed closed, _, passes, _ =>
      obtain ⟨between, first, behind⟩ := passes.split
      have reads := expression_complete called level bound (Nat.le_trans (Nat.min_le_right _ _)
        (by decide)) first around between.stops_call (by simp [behind.kind_eq, opened])
      have goesOn : ¬between.endsLine = true := by
        rw [first.endsLine_iff called.ne_nil, around, behind.current_eq rfl, not_and]
        exact sameLine
      obtain ⟨prev, rest, stop, parens, rfl, inside⟩ := behind.uncons
      have arguments := argumentList_complete listed closed inside.enter rfl
      rw [reads, run_continuations_call _ opened (Nat.lt_of_le_of_lt bound (by decide)) goesOn]
      simp only [arguments, Run.mapCursor_ok, Run.andThen_ok, Cursor.leave_enter]
  | .sign sign inner, _, passes, stops =>
      obtain ⟨prev, rest, stop, parens, rfl, behind⟩ := passes.uncons
      have reads := (expression_complete inner .sign (Nat.le_refl _)
        (Nat.min_le_right _ _) behind around stops ended).trans (stops.run_continuations _)
      rw [run_expr, run_operand_sign sign, reads, Run.map_ok, Run.andThen_ok]
  | .binary first listed sameLine second, above, passes, stops =>
      have bounds := listed.bounds
      obtain ⟨between, passes, behind⟩ := passes.split
      have listed' := behind.kind_eq ▸ listed
      have reads := expression_complete first level bound above passes around listed'.stops
        listed'.kind_ne_elseWord
      have goesOn : ¬between.endsLine = true := by
        rw [passes.endsLine_iff first.ne_nil, around, behind.current_eq rfl, not_and]
        exact sameLine
      have around' := passes.grouped_eq.trans around
      obtain ⟨prev, rest, stop, parens, rfl, inside⟩ := behind.uncons
      have operand := (expression_complete second _ (Nat.le_of_lt bounds.2)
        (Nat.min_le_left _ _) inside around' (stops.mono (Nat.le_succ _)) ended).trans
          (stops.run_continuations _)
      rw [reads, run_continuations_infix _ listed (lt_of_min_succ_le above bounds.2) goesOn,
        operand, Run.andThen_ok]
  | .tighter inner, above, passes, stops =>
      exact expression_complete inner level bound (Nat.le_succ_of_le above) passes around
        (stops.mono (Nat.le_succ _)) ended
termination_by structural derived

/-- A choice is read after its first word. -/
theorem choice_complete
    {grouped : Bool}
    {tokens : List Token}
    {value : Expr}
    {start next : Cursor}
    (derived : Choice grouped tokens value)
    (passes : start.Passes tokens next)
    (around : start.grouped = grouped)
    (ended : next.kind ≠ .elseWord) :
    ∃ prev word rest stop parens, start = ⟨prev, word :: rest, stop, parens⟩ ∧
      word.kind = .ifWord ∧
      (branch word.pos ⟨some word, rest, stop, parens⟩).run = .ok (value, next) := by
  match derived, passes with
  | .choice kind test block otherwise, passes =>
      obtain ⟨prev, rest, stop, parens, rfl, behind⟩ := passes.uncons
      obtain ⟨between, tested, behind⟩ := behind.split
      obtain ⟨after, inside, behind⟩ := behind.split
      have stops := stops_of_braces block inside .lowest
      have condition := (expression_complete test .lowest (by decide) (by decide)
        tested around (stops.mono (by decide))
        (by simp [kind_of_braces block inside])).trans (stops.run_continuations _)
      have thenArm := braces_complete block inside
      have elseArm := elseArm_complete otherwise behind
        (inside.grouped_eq.trans (tested.grouped_eq.trans around)) ended
      refine ⟨prev, _, rest, stop, parens, rfl, kind, ?_⟩
      simp only [run_branch, condition, thenArm, elseArm, Run.andThen_ok, Run.map_ok]
termination_by structural derived

theorem elseArm_complete
    {grouped : Bool}
    {tokens : List Token}
    {value : Option Block}
    {start next : Cursor}
    (derived : ElseArm grouped tokens value)
    (passes : start.Passes tokens next)
    (around : start.grouped = grouped)
    (ended : next.kind ≠ .elseWord) :
    (elseArm start).run = .ok (value, next) := by
  match derived, passes with
  | .absent, passes =>
      obtain rfl := passes.eq_of_nil
      obtain ⟨prev, rest, stop, parens⟩ := next
      cases rest with
      | nil => exact run_elseArm_nil prev stop parens
      | cons token rest =>
          have ended : token.kind ≠ .elseWord := ended
          rw [run_elseArm_cons, if_neg ended]
  | .block kind block, passes =>
      obtain ⟨prev, rest, stop, parens, rfl, behind⟩ := passes.uncons
      have opens := kind_of_braces block behind
      have body := braces_complete block behind
      rw [run_elseArm_cons, if_pos kind]
      cases rest with
      | nil => rw [body, Run.map_ok]
      | cons token rest =>
          have opens : token.kind = .leftBrace := opens
          simp only [opens, body, Run.map_ok, reduceCtorEq, if_false]
  | .chain kind choice, passes =>
      obtain ⟨prev, rest, stop, parens, rfl, behind⟩ := passes.uncons
      obtain ⟨_, word, rest', _, _, equal, kind', reads⟩ :=
        choice_complete choice behind around ended
      obtain ⟨rfl, rfl, rfl, rfl⟩ := Cursor.mk.inj equal
      rw [run_elseArm_cons, if_pos kind]
      simp only [kind', reads, Run.map_ok, if_true]
termination_by structural derived

theorem argumentList_complete
    {tokens : List Token}
    {closing : Token}
    {values : List Expr}
    {start next : Cursor}
    (derived : ArgumentList tokens values)
    (closed : closing.kind = .rightParen)
    (passes : start.Passes (tokens ++ [closing]) next)
    (around : start.grouped = true) :
    (args start).run = .ok (values, next) := by
  match derived, passes with
  | .none, passes =>
      have kind := passes.kind_eq.trans closed
      obtain ⟨after, closes, passes'⟩ := passes.expect closed
      rw [run_args, if_pos kind, closes, passes'.eq_of_nil, Run.map_ok]
  | .some listed, passes =>
      rw [run_args, if_neg (kind_ne_rightParen_of_arguments listed passes)]
      exact arguments_complete listed closed passes around
termination_by structural derived

theorem arguments_complete
    {tokens : List Token}
    {closing : Token}
    {values : List Expr}
    {start next : Cursor}
    (derived : Arguments tokens values)
    (closed : closing.kind = .rightParen)
    (passes : start.Passes (tokens ++ [closing]) next)
    (around : start.grouped = true) :
    (arg start).run = .ok (values, next) := by
  match derived, passes with
  | .one only, passes =>
      obtain ⟨between, inside, behind⟩ := passes.split
      have kind := behind.kind_eq.trans closed
      have stops : between.Stops .lowest :=
        Cursor.stops_of_ofKind?_eq_none _ (by rw [kind]; rfl)
      have reads := (expression_complete only .lowest (by decide) (by decide) inside
        around (stops.mono (by decide)) (by simp [kind])).trans (stops.run_continuations _)
      obtain ⟨after, closes, passes'⟩ := behind.expect closed
      rw [run_arg, reads, Run.andThen_ok, run_moreArgs, if_pos kind, closes,
        passes'.eq_of_nil]
      rfl
  | .more first separated rest, passes =>
      rw [List.append_assoc] at passes
      obtain ⟨between, inside, behind⟩ := passes.split
      have kind := behind.kind_eq.trans separated
      have stops : between.Stops .lowest :=
        Cursor.stops_of_ofKind?_eq_none _ (by rw [kind]; rfl)
      have reads := (expression_complete first .lowest (by decide) (by decide) inside
        around (stops.mono (by decide)) (by simp [kind])).trans (stops.run_continuations _)
      obtain ⟨after, separates, behind'⟩ := behind.expect separated
      have around' : after.grouped = true := by
        rw [← behind'.grouped_eq, behind.grouped_eq, inside.grouped_eq, around]
      have others := arguments_complete rest closed behind' around'
      rw [run_arg, reads, Run.andThen_ok, run_moreArgs, if_neg (by simp [kind]),
        if_pos (by simp [kind]), separates, Run.andThen_ok, others, Run.map_ok]
termination_by structural derived

theorem braces_complete
    {tokens : List Token}
    {value : Block}
    {start next : Cursor}
    (derived : Braces tokens value)
    (passes : start.Passes tokens next) :
    (block start).run = .ok (value, next) := by
  match derived, passes with
  | .block opened inner closed, passes =>
      obtain ⟨inside, opens, behind⟩ := passes.expect opened
      obtain ⟨between, passes', closes⟩ := (behind.withParens 0).split
      have kind := closes.kind_eq.trans closed
      have reads := statements_complete inner .rightBrace (.inl rfl) passes' rfl kind
      obtain ⟨after, closes, passes''⟩ := closes.expect closed
      have parens : next.parens = inside.parens := behind.parens
      rw [run_block, opens, Run.andThen_ok, reads.run_statements closes,
        ← passes''.eq_of_nil, Run.mapCursor_ok, ← parens]
      rfl
termination_by structural derived

/-- Statements are read one after the other. -/
theorem statements_complete
    {tokens : List Token}
    {stmts : List Stmt}
    {start last : Cursor}
    (derived : Statements tokens stmts)
    (closing : Kind)
    (closes : closing = .rightBrace ∨ closing = .endOfInput)
    (passes : start.Passes tokens last)
    (ungrouped : start.grouped = false)
    (kind : last.kind = closing) :
    Reads closing start stmts last := by
  have closing_ne : closing ≠ .semicolon := by
    rcases closes with rfl | rfl <;> decide
  match derived, passes with
  | .nil, passes =>
      obtain rfl := passes.eq_of_nil
      exact .nil kind closing_ne
  | .empty semicolon rest, passes =>
      obtain ⟨prev, rest', stop, parens, rfl, behind⟩ := passes.uncons
      have reads := statements_complete rest closing closes behind ungrouped kind
      exact reads.of_skipSemicolons_eq
        (Cursor.skipSemicolons_cons prev rest' stop parens semicolon)
  | .last first, passes =>
      have reads := statement_complete first passes ungrouped
        (.of_kind _ (.inr (kind ▸ closes)))
      exact .cons (starts_of_statement first passes) reads (.inr (.inl kind)) (.nil kind closing_ne)
  | .closed first semicolon rest, passes =>
      obtain ⟨between, passes, behind⟩ := passes.split
      have kind' := behind.kind_eq.trans semicolon
      have reads := statement_complete first passes ungrouped (.of_kind _ (.inl kind'))
      have starts := starts_of_statement first passes
      have ungrouped' := passes.grouped_eq.trans ungrouped
      obtain ⟨prev, rest', stop, parens, rfl, further⟩ := behind.uncons
      have others := statements_complete rest closing closes further ungrouped' kind
      exact .cons starts reads (.inl kind') (others.of_skipSemicolons_eq
        (Cursor.skipSemicolons_cons prev rest' stop parens semicolon))
  | .adjacent first brace ends rest, passes =>
      obtain ⟨between, passes, behind⟩ := passes.split
      have reads := statement_complete first passes ungrouped
        (.of_statements passes first.ne_nil ungrouped rest ends behind (kind ▸ closes))
      have others := statements_complete rest closing closes behind
        (passes.grouped_eq.trans ungrouped) kind
      have follows : between.follows .rightBrace = true := by
        rw [Cursor.follows, passes.prev_eq first.ne_nil]
        simpa [EndsInBrace, Option.any_eq_true] using brace
      exact .cons (starts_of_statement first passes) reads (.inr (.inr follows)) others
termination_by structural derived

/-- A statement is read to where it ends. -/
theorem statement_complete
    {tokens : List Token}
    {stmt : Stmt}
    {start next : Cursor}
    (derived : Statement tokens stmt)
    (passes : start.Passes tokens next)
    (ungrouped : start.grouped = false)
    (ends : EndsAt tokens next) :
    (statement start).run = .ok (stmt, next) := by
  match derived, passes, ends with
  | .result kind given, passes, ends =>
      obtain ⟨prev, rest, stop, parens, rfl, behind⟩ := passes.uncons
      have stops := ends.stops_of_head kind (by decide)
      have reads := (expression_complete given .lowest (by decide) (by decide) behind ungrouped
        (stops.mono (by decide)) ends.kind_ne_elseWord).trans (stops.run_continuations _)
      rw [run_statement_cons]
      simp only [kind, reads, Run.map_ok]
  | .declare kind named marked given, passes, ends =>
      obtain ⟨prev, rest, stop, parens, rfl, behind⟩ := passes.uncons
      have stops := ends.stops_of_head kind (by decide)
      obtain ⟨between, names, behind'⟩ := behind.expect named
      obtain ⟨after, marks, behind''⟩ := behind'.expect marked
      have ungrouped' : after.grouped = false := by
        rw [← behind''.grouped_eq, behind.grouped_eq]
        exact ungrouped
      have reads := (expression_complete given .lowest (by decide) (by decide) behind''
        ungrouped' (stops.mono (by decide)) ends.kind_ne_elseWord).trans
          (stops.run_continuations _)
      rw [run_statement_cons]
      simp only [kind, names, marks, reads, Run.andThen_ok, Run.map_ok]
  | .assign named marked given, passes, ends =>
      obtain ⟨prev, rest, stop, parens, rfl, behind⟩ := passes.uncons
      have stops := ends.stops_of_head named (by decide)
      obtain ⟨_, rest', _, _, equal, behind'⟩ := behind.uncons
      obtain ⟨rfl, rfl, rfl, rfl⟩ := Cursor.mk.inj equal
      have reads := (expression_complete given .lowest (by decide) (by decide) behind' ungrouped
        (stops.mono (by decide)) ends.kind_ne_elseWord).trans (stops.run_continuations _)
      rw [run_statement_cons]
      simp only [named, marked, reads, Run.map_ok, if_true]
  | .choice choice, passes, ends =>
      obtain ⟨prev, word, rest, stop, parens, rfl, kind, reads⟩ :=
        choice_complete choice passes ungrouped ends.kind_ne_elseWord
      rw [run_statement_cons]
      simp only [kind, reads, Run.map_ok]
  | .expr start given, passes, ends =>
      have stops := ends.stops.resolve_left start
      have reads := (expression_complete given .lowest (by decide) (by decide) passes ungrouped
        (stops.mono (by decide)) ends.kind_ne_elseWord).trans (stops.run_continuations _)
      exact run_statement_of_expr start given.head passes reads ends.kind_ne_assign
termination_by structural derived

end

/-- The program of the tokens that stand for it in the grammar. -/
theorem program_complete
    {cursor : Cursor}
    {stmts : List Stmt}
    (derived : Statements cursor.rest stmts)
    (ungrouped : cursor.grouped = false) :
    program cursor = ⟨stmts, []⟩ := by
  obtain ⟨last, passes, ended⟩ := cursor.exists_passes_rest
  have kind : last.kind = .endOfInput := by
    rw [Cursor.kind, Cursor.current, ended]
    rfl
  exact (statements_complete derived .endOfInput (.inr rfl) passes ungrouped kind).program_eq
    ended

end Parser

/-! ## The grammar of the parser -/

theorem Cursor.rest_ofTokens
    {body : List Token}
    {stop : Token}
    (noEnd : ∀ token ∈ body, token.kind ≠ .endOfInput)
    (ends : stop.kind = .endOfInput) :
    (ofTokens (body ++ [stop])).rest = body := by
  rw [ofTokens, List.takeWhile_append_of_pos (by simpa using noEnd)]
  simp [ends]

/-- A token list gives a program without errors exactly when the grammar derives
that program from it. -/
theorem Program.ofTokens_eq_iff_statements
    (body : List Token)
    (stop : Token)
    (program : Program)
    (noEnd : ∀ token ∈ body, token.kind ≠ .endOfInput)
    (ends : stop.kind = .endOfInput) :
    Program.ofTokens (body ++ [stop]) = ⟨program, []⟩ ↔ Grammar.Statements body program := by
  have rest := Cursor.rest_ofTokens noEnd ends
  constructor
  · intro equal
    have derived := Parser.program_sound (.ofTokens (body ++ [stop])) rfl
      (by rw [← Program.ofTokens, equal])
    rw [rest, ← Program.ofTokens, equal] at derived
    exact derived
  · intro derived
    rw [← rest] at derived
    exact Parser.program_complete derived rfl

/-- A chain of differences groups to the left. -/
theorem Program.ofTokens_differences :
    Program.ofTokens
        [⟨.identifier, "a", .start⟩, ⟨.minus, "-", .start⟩, ⟨.integer, "2", .start⟩,
          ⟨.minus, "-", .start⟩, ⟨.identifier, "b", .start⟩, .endAt .start] =
      ⟨[.expr (.binary (.binary (.name .start "a") .subtract (.int .start 2)) .subtract
        (.name .start "b"))], []⟩ := by
  let first : Token := ⟨.identifier, "a", .start⟩
  let second : Token := ⟨.integer, "2", .start⟩
  let third : Token := ⟨.identifier, "b", .start⟩
  let sign : Token := ⟨.minus, "-", .start⟩
  have sameLine (token : Token) (kind : token.kind ≠ .rightBrace) (tokens : List Token) :
      false = false → ¬Grammar.BreaksLine (tokens ++ [token]) sign := by
    rintro - ⟨last, found, brace, _⟩
    simp only [List.getLast?_append, List.getLast?_singleton, Option.some_or,
      Option.mem_some_iff] at found
    exact kind (found ▸ brace)
  have two : second.lexeme.toInt64? = some 2 := by decide
  have left : Grammar.Expression .false .sum ([first] ++ sign :: [second]) _ :=
    .binary ((Grammar.Expression.name rfl).weaken (by decide)) .subtract
      (sameLine first (by decide) [])
      ((Grammar.Expression.int rfl two).weaken (by decide))
  have whole : Grammar.Expression .false .sum
      (([first] ++ sign :: [second]) ++ sign :: [third]) _ :=
    .binary left .subtract (sameLine second (by decide) [first, sign])
      ((Grammar.Expression.name rfl).weaken (by decide))
  refine (ofTokens_eq_iff_statements [first, sign, second, sign, third] (.endAt .start) _
    (by decide) rfl).mpr (.last (.expr ?_ (whole.weaken (by decide))))
  rintro ⟨token, found, kind⟩
  obtain rfl := Option.some.inj found
  cases kind

end Siren
