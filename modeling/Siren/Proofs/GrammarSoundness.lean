import Siren.Proofs.Grammar
import Siren.Proofs.ParserRuns

/-!
# The parser reads only what the grammar allows

A successful run passes some tokens.  These stand in the grammar for the tree
that the run gives.  The loop that reads operators keeps the tree so far at a
level above which nothing can follow; this is what makes its groups those of
the layered grammar.
-/

namespace Siren

/-! ## Passing tokens -/

/-- The cursor `next` stands behind `tokens`, which are ahead of `start`. -/
structure Cursor.Passes (start : Cursor) (tokens : List Token) (next : Cursor) : Prop where
  rest : start.rest = tokens ++ next.rest
  prev : next.prev = tokens.getLast?.or start.prev
  stop : next.stop = start.stop
  parens : next.parens = start.parens

namespace Cursor

namespace Passes

variable {start between next : Cursor} {tokens tokens' : List Token}

theorem refl (cursor : Cursor) : cursor.Passes [] cursor :=
  ⟨rfl, rfl, rfl, rfl⟩

theorem trans
    (first : start.Passes tokens between)
    (second : between.Passes tokens' next) :
    start.Passes (tokens ++ tokens') next where
  rest := by
    rw [first.rest, second.rest, List.append_assoc]
  prev := by
    rw [second.prev, first.prev, List.getLast?_append, Option.or_assoc]
  stop := second.stop.trans first.stop
  parens := second.parens.trans first.parens

/-- Tokens passed together are passed one part after the other. -/
theorem split (passes : start.Passes (tokens ++ tokens') next) :
    ∃ between, start.Passes tokens between ∧ between.Passes tokens' next := by
  refine ⟨⟨tokens.getLast?.or start.prev, tokens' ++ next.rest, start.stop, start.parens⟩,
    ⟨?_, rfl, rfl, rfl⟩, ⟨rfl, ?_, passes.stop, passes.parens⟩⟩
  · rw [passes.rest, List.append_assoc]
  · rw [passes.prev, List.getLast?_append, Option.or_assoc]

theorem cons
    {prev : Option Token} {token : Token} {rest : List Token} {stop : Position} {parens : Nat}
    (passes : Passes ⟨some token, rest, stop, parens⟩ tokens next) :
    Passes ⟨prev, token :: rest, stop, parens⟩ (token :: tokens) next where
  rest := congrArg (token :: ·) passes.rest
  prev := by
    rw [passes.prev]
    cases tokens with
    | nil => rfl
    | cons first others => simp [List.getLast?_cons]
  stop := passes.stop
  parens := passes.parens

/-- The number of open parentheses has no part in passing tokens. -/
theorem withParens (passes : start.Passes tokens next) (parens : Nat) :
    (start.withParens parens).Passes tokens (next.withParens parens) :=
  ⟨passes.rest, passes.prev, passes.stop, rfl⟩

theorem leave
    {prev : Option Token} {rest : List Token} {stop : Position} {parens : Nat}
    (passes : Passes ⟨prev, rest, stop, parens + 1⟩ tokens next) :
    Passes ⟨prev, rest, stop, parens⟩ tokens next.leave where
  rest := passes.rest
  prev := passes.prev
  stop := passes.stop
  parens := by
    rw [Cursor.leave, passes.parens, Nat.add_sub_cancel]

/-- The token read last is the last of those passed. -/
theorem prev_eq (passes : start.Passes tokens next) (nonempty : tokens ≠ []) :
    next.prev = tokens.getLast? := by
  rw [passes.prev]
  cases found : tokens.getLast? with
  | none => exact absurd (List.getLast?_eq_none_iff.mp found) nonempty
  | some token => rfl

theorem current_eq
    {token : Token}
    (passes : start.Passes tokens next)
    (heads : token ∈ tokens.head?) :
    start.current = token := by
  cases tokens with
  | nil => cases heads
  | cons first others =>
      obtain rfl := Option.some.inj heads
      rw [current, passes.rest]
      rfl

end Passes

/-- All tokens ahead can be passed. -/
theorem exists_passes_rest (cursor : Cursor) :
    ∃ last, cursor.Passes cursor.rest last ∧ last.rest = [] :=
  ⟨⟨cursor.rest.getLast?.or cursor.prev, [], cursor.stop, cursor.parens⟩,
    ⟨(List.append_nil _).symm, rfl, rfl, rfl⟩, rfl⟩

/-- Whether a parenthesis is open around this place. -/
def grouped (cursor : Cursor) : Bool :=
  cursor.parens ≠ 0

theorem Passes.grouped_eq
    {start next : Cursor}
    {tokens : List Token}
    (passes : start.Passes tokens next) :
    next.grouped = start.grouped := by
  simp [grouped, passes.parens]

/-- No operator above a level, and no call if that is above it, goes on with the
expression that ends here. -/
def Stops (level : Level) (cursor : Cursor) : Prop :=
  ∀ continuation, Continuation.ofKind? cursor.kind = some continuation →
    continuation.level ≤ level ∨ cursor.endsLine = true

theorem Stops.mono
    {level higher : Level}
    {cursor : Cursor}
    (stops : cursor.Stops level)
    (le : level ≤ higher) :
    cursor.Stops higher := by
  intro continuation found
  rcases stops continuation found with below | ends
  · exact .inl (Nat.le_trans below le)
  · exact .inr ends

/-- Nothing lies above calls. -/
theorem stops_call (cursor : Cursor) : cursor.Stops .call := by
  intro continuation found
  left
  revert found
  cases cursor.kind <;> simp only [Continuation.ofKind?] <;> intro found <;> cases found <;>
    decide

/-- An expression ends with its line exactly when its tokens break it and no
parenthesis is open. -/
theorem Passes.endsLine_iff
    {start next : Cursor}
    {tokens : List Token}
    (passes : start.Passes tokens next)
    (nonempty : tokens ≠ []) :
    next.endsLine = true ↔
      start.grouped = false ∧ Grammar.BreaksLine tokens next.current := by
  unfold endsLine Grammar.BreaksLine grouped
  rw [passes.prev_eq nonempty, passes.parens]
  simp [Option.any_eq_true]

end Cursor

namespace Grammar

/-- The operators of the grammar are those the parser goes on with. -/
theorem infix_iff (level : Level) (kind : Kind) (op : BinaryOp) :
    Infix level kind op ↔ Continuation.ofKind? kind = some (.operator op level) := by
  constructor
  · intro listed
    cases listed <;> rfl
  · intro found
    cases kind <;> simp only [Continuation.ofKind?] at found <;> cases found <;> constructor

/-- The parser goes on with a call at its parenthesis only. -/
theorem ofKind?_eq_arguments {kind : Kind} :
    Continuation.ofKind? kind = some .arguments ↔ kind = .leftParen := by
  cases kind <;> simp [Continuation.ofKind?]

theorem goesOn_iff (kind : Kind) :
    GoesOn kind ↔ ∃ continuation, Continuation.ofKind? kind = some continuation := by
  constructor
  · rintro (rfl | ⟨level, op, listed⟩)
    · exact ⟨.arguments, rfl⟩
    · exact ⟨_, (infix_iff level kind op).mp listed⟩
  · rintro ⟨continuation, found⟩
    cases continuation with
    | arguments => exact .inl (ofKind?_eq_arguments.mp found)
    | operator op level => exact .inr ⟨level, op, (infix_iff level kind op).mpr found⟩

/-- Operators between operands lie above the lowest level and below signs. -/
theorem Infix.bounds {level : Level} {kind : Kind} {op : BinaryOp} (listed : Infix level kind op) :
    .lowest < level ∧ level < .sign := by
  cases listed <;> decide

/-- Where no operator and no call can follow, a statement ends. -/
theorem endsBefore_of_stops
    {start next : Cursor}
    {tokens : List Token}
    (passes : start.Passes tokens next)
    (nonempty : tokens ≠ [])
    (stops : next.Stops .lowest) :
    EndsBefore tokens next.current := by
  by_cases goesOn : GoesOn next.kind
  · obtain ⟨continuation, found⟩ := (goesOn_iff next.kind).mp goesOn
    rcases stops continuation found with below | ends
    · cases continuation with
      | arguments => exact absurd below (by decide)
      | operator op level =>
          have bounds := ((infix_iff level next.kind op).mpr found).bounds
          exact absurd below (Nat.not_le.mpr bounds.1)
    · exact .inr (.inr ((passes.endsLine_iff nonempty).mp ends).2)
  · exact .inr (.inl goesOn)

end Grammar

/-! ## Tokens and parameters -/

/-- Reading a token of a kind passes one. -/
theorem Cursor.passes_of_expect
    {cursor next : Cursor}
    {wanted : Kind}
    {token : Token}
    (done : (cursor.expect wanted).run = .ok (token, next)) :
    cursor.Passes [token] next ∧ token.kind = wanted ∧ cursor.current = token := by
  obtain ⟨prev, rest, stop, parens⟩ := cursor
  cases rest with
  | nil =>
      rw [run_expect_nil] at done
      cases done
  | cons first rest =>
      rw [run_expect_cons] at done
      split at done
      · rename_i kind
        cases done
        exact ⟨(Passes.refl _).cons, kind, rfl⟩
      · cases done

/-- Skipping semicolons passes semicolons only. -/
theorem Cursor.passes_skipSemicolons (cursor : Cursor) :
    cursor.Passes (cursor.rest.takeWhile (·.kind = .semicolon)) cursor.skipSemicolons where
  rest := by
    exact List.prefix_iff_eq_append.mp (List.takeWhile_prefix _) |>.symm
  prev := by
    rw [skipSemicolons, drop, ← List.prefix_iff_eq_take.mp (List.takeWhile_prefix _)]
  stop := rfl
  parens := rfl

namespace Parser

open Grammar

mutual

theorem param_sound
    (seen : List Text)
    (cursor : Cursor)
    {names : List Text}
    {next : Cursor}
    (done : (param seen cursor).run = .ok (names, next)) :
    ∃ tokens closing, cursor.Passes (tokens ++ [closing]) next ∧
      closing.kind = .rightParen ∧ Parameters tokens names ∧ names.Nodup ∧
      ∀ name ∈ names, name ∉ seen := by
  rw [run_param] at done
  split at done
  · cases done
  · rename_i unseen
    obtain ⟨token, between, first, rest⟩ := Run.andThen_eq_ok.mp done
    have shorter := Parsed.left_of_run_eq_ok first
    obtain ⟨passed, kind, current⟩ := Cursor.passes_of_expect first
    obtain ⟨others, more, rfl⟩ := Run.map_eq_ok.mp rest
    obtain ⟨tokens, closing, passes, closed, extend, distinct, fresh⟩ :=
      moreParams_sound (token.lexeme :: seen) between more
    refine ⟨token :: tokens, closing, passed.trans passes, closed, extend kind, ?_, ?_⟩
    · refine List.nodup_cons.mpr ⟨fun member => ?_, distinct⟩
      exact fresh token.lexeme member List.mem_cons_self
    · intro name member
      rcases List.mem_cons.mp member with rfl | later
      · rw [← current]
        exact unseen
      · exact fun listed => fresh name later (List.mem_cons_of_mem _ listed)
termination_by cursor.left

theorem moreParams_sound
    (seen : List Text)
    (cursor : Cursor)
    {names : List Text}
    {next : Cursor}
    (done : (moreParams seen cursor).run = .ok (names, next)) :
    ∃ tokens closing, cursor.Passes (tokens ++ [closing]) next ∧
      closing.kind = .rightParen ∧
      (∀ {first : Token}, first.kind = .identifier →
        Parameters (first :: tokens) (first.lexeme :: names)) ∧
      names.Nodup ∧ ∀ name ∈ names, name ∉ seen := by
  rw [run_moreParams] at done
  split at done
  · obtain ⟨closing, closes, rfl⟩ := Run.map_eq_ok.mp done
    obtain ⟨passes, kind, _⟩ := Cursor.passes_of_expect closes
    exact ⟨[], closing, passes, kind, .one, List.nodup_nil, by simp⟩
  · obtain ⟨comma, between, first, rest⟩ := Run.andThen_eq_ok.mp done
    have shorter := Parsed.left_of_run_eq_ok first
    obtain ⟨passed, kind, _⟩ := Cursor.passes_of_expect first
    obtain ⟨tokens, closing, passes, closed, listed, distinct, fresh⟩ :=
      param_sound seen between rest
    exact ⟨comma :: tokens, closing, passed.trans passes, closed,
      fun named => .more named kind listed, distinct, fresh⟩
termination_by cursor.left

end

theorem params_sound
    (cursor : Cursor)
    {names : List Text}
    {next : Cursor}
    (done : (params cursor).run = .ok (names, next)) :
    ∃ tokens closing, cursor.Passes (tokens ++ [closing]) next ∧
      closing.kind = .rightParen ∧ ParameterList tokens names ∧ names.Nodup := by
  rw [run_params] at done
  split at done
  · obtain ⟨closing, closes, rfl⟩ := Run.map_eq_ok.mp done
    obtain ⟨passes, kind, _⟩ := Cursor.passes_of_expect closes
    exact ⟨[], closing, passes, kind, .none, List.nodup_nil⟩
  · obtain ⟨tokens, closing, passes, closed, listed, distinct, _⟩ := param_sound [] cursor done
    exact ⟨tokens, closing, passes, closed, .some listed, distinct⟩

/-! ## The end of a statement -/

/-- A statement ends with a semicolon, before the token that closes the
statements, or after a closing brace. -/
theorem endStatement_sound
    {closing : Kind}
    {cursor next : Cursor}
    (done : (endStatement closing cursor).run = .ok ((), next)) :
    (∃ semicolon, semicolon.kind = .semicolon ∧ cursor.Passes [semicolon] next) ∨
      next = cursor ∧ (cursor.kind = closing ∨ cursor.follows .rightBrace = true) := by
  rw [run_endStatement] at done
  split at done
  · obtain ⟨semicolon, reads, _⟩ := Run.map_eq_ok.mp done
    obtain ⟨passes, kind, _⟩ := Cursor.passes_of_expect reads
    exact .inl ⟨semicolon, kind, passes⟩
  · split at done
    · rename_i ends
      cases done
      exact .inr ⟨rfl, by simpa using ends⟩
    · split at done <;> cases done

theorem grouped_of_endStatement
    {closing : Kind}
    {cursor next : Cursor}
    (done : (endStatement closing cursor).run = .ok ((), next)) :
    next.grouped = cursor.grouped := by
  rcases endStatement_sound done with ⟨semicolon, _, passes⟩ | ⟨rfl, _⟩
  · exact passes.grouped_eq
  · rfl

/-- A statement and those behind its end are statements. -/
theorem statements_of_endStatement
    {start between next last : Cursor}
    {tokens tokens' : List Token}
    {stmt : Stmt}
    {stmts : List Stmt}
    {closing : Kind}
    (passes : start.Passes tokens between)
    (first : Statement tokens stmt)
    (stops : StartsChoice tokens ∨ between.Stops .lowest)
    (done : (endStatement closing between).run = .ok ((), next))
    (passes' : next.Passes tokens' last)
    (rest : Statements tokens' stmts)
    (semicolon : closing ≠ .semicolon)
    (starts : ¬StartsStatement closing) :
    ∃ tokens'', start.Passes tokens'' last ∧ Statements tokens'' (stmt :: stmts) := by
  rcases endStatement_sound done with ⟨semicolon, kind, passed⟩ | ⟨rfl, ends⟩
  · exact ⟨_, passes.trans (passed.trans passes'), .closed first kind rest⟩
  · rcases ends with closes | brace
    · cases tokens' with
      | nil =>
          obtain rfl := rest.eq_nil
          exact ⟨_, passes.trans passes', by simpa using Statements.last first⟩
      | cons token others =>
          have head := rest.head (List.head?_cons (a := token) (l := others))
          rw [← passes'.current_eq rfl, ← Cursor.kind, closes] at head
          exact absurd head (not_or.mpr ⟨semicolon, starts⟩)
    · refine ⟨_, passes.trans passes', .adjacent first ?_ ?_ rest⟩
      · rw [Cursor.follows, passes.prev_eq first.ne_nil] at brace
        simpa [EndsInBrace, Option.any_eq_true] using brace
      · intro token heads
        rcases stops with choice | stops
        · exact .inl choice
        · rw [← passes'.current_eq heads]
          exact endsBefore_of_stops passes first.ne_nil stops

/-- Semicolons ahead of statements are statements with them. -/
theorem statements_of_skipSemicolons
    {cursor last : Cursor}
    {tokens : List Token}
    {stmts : List Stmt}
    (passes : cursor.skipSemicolons.Passes tokens last)
    (rest : Statements tokens stmts) :
    ∃ tokens', cursor.Passes tokens' last ∧ Statements tokens' stmts := by
  refine ⟨_, cursor.passes_skipSemicolons.trans passes, ?_⟩
  have kinds : ∀ token ∈ cursor.rest.takeWhile (·.kind = .semicolon),
      token.kind = .semicolon := by
    intro token member
    simpa using List.all_eq_true.mp List.all_takeWhile token member
  generalize List.takeWhile _ cursor.rest = semicolons at kinds
  induction semicolons with
  | nil => exact rest
  | cons semicolon others inductionHypothesis =>
      refine .empty (kinds semicolon List.mem_cons_self) ?_
      exact inductionHypothesis fun token member =>
        kinds token (List.mem_cons_of_mem _ member)

/-! ## Expressions, blocks and statements -/

/-- An operand lies between two cursors, with nothing above its level behind
it. -/
def OperandBetween (start : Cursor) (value : Expr) (next : Cursor) : Prop :=
  ∃ tokens level, start.Passes tokens next ∧ .sign ≤ level ∧
    Expression start.grouped level tokens value ∧ next.Stops level

theorem OperandBetween.atom
    {prev : Option Token} {token : Token} {rest tokens : List Token} {stop : Position}
    {parens : Nat} {value : Expr} {next : Cursor}
    (passes : Cursor.Passes ⟨some token, rest, stop, parens⟩ tokens next)
    (derived : Expression (Cursor.grouped ⟨prev, token :: rest, stop, parens⟩) .call
      (token :: tokens) value) :
    OperandBetween ⟨prev, token :: rest, stop, parens⟩ value next :=
  ⟨_, .call, passes.cons, by decide, derived, next.stops_call⟩

mutual

/-- An expression above a level is read to where nothing above it follows. -/
theorem expr_sound
    (level : Level)
    (cursor : Cursor)
    {value : Expr}
    {next : Cursor}
    (bound : level ≤ .sign)
    (done : (expr level cursor).run = .ok (value, next)) :
    ∃ tokens, cursor.Passes tokens next ∧
      Expression cursor.grouped (min (level + 1) .sign) tokens value ∧ next.Stops level := by
  rw [run_expr] at done
  obtain ⟨left, between, first, rest⟩ := Run.andThen_eq_ok.mp done
  have shorter := Parsed.left_of_run_eq_ok first
  obtain ⟨tokens, level', passes, above, derived, stops⟩ := operand_sound cursor first
  exact continuations_sound level level' left cursor between bound
    (Nat.le_trans (Nat.min_le_right _ _) above) passes derived stops rest
termination_by 6 * cursor.left + 3

/-- The loop keeps the tokens passed at a level that no operator ahead lies
above. -/
theorem continuations_sound
    (level level' : Level)
    (left : Expr)
    (start cursor : Cursor)
    {tokens : List Token}
    {value : Expr}
    {next : Cursor}
    (bound : level ≤ .sign)
    (above : min (level + 1) .sign ≤ level')
    (passes : start.Passes tokens cursor)
    (derived : Expression start.grouped level' tokens left)
    (stops : cursor.Stops level')
    (done : (continuations level left cursor).run = .ok (value, next)) :
    ∃ tokens, start.Passes tokens next ∧
      Expression start.grouped (min (level + 1) .sign) tokens value ∧ next.Stops level := by
  have nonempty := derived.ne_nil
  match cursor, passes, stops, done with
  | ⟨prev, [], stop, parens⟩, passes, stops, done =>
      rw [run_continuations_nil] at done
      cases done
      exact ⟨tokens, passes, derived.weaken above, nofun⟩
  | ⟨prev, token :: rest, stop, parens⟩, passes, stops, done =>
      rw [run_continuations_cons] at done
      split at done
      · rename_i none
        cases done
        refine ⟨tokens, passes, derived.weaken above, ?_⟩
        intro continuation found
        exact absurd (none.symm.trans found) (by simp)
      · rename_i continuation found
        split at done
        · rename_i ends
          cases done
          refine ⟨tokens, passes, derived.weaken above, ?_⟩
          intro continuation' found'
          obtain rfl := Option.some.inj (found.symm.trans found')
          simpa using ends
        · rename_i goesOn
          simp only [Bool.or_eq_true, decide_eq_true_eq, not_or] at goesOn
          have within : continuation.level ≤ level' :=
            (stops continuation found).resolve_right goesOn.2
          have sameLine : start.grouped = false → ¬BreaksLine tokens token :=
            fun ungrouped breaks =>
              goesOn.2 ((passes.endsLine_iff nonempty).mpr ⟨ungrouped, breaks⟩)
          have shorter := Cursor.left_next prev token rest stop parens
          cases continuation with
          | arguments =>
              obtain ⟨args, after, leaves, more⟩ := Run.andThen_eq_ok.mp done
              obtain ⟨inside, reads, rfl⟩ := Run.mapCursor_eq_ok.mp leaves
              have entered : Cursor.left ⟨some token, rest, stop, parens + 1⟩ + 1 ≤
                  Cursor.left ⟨prev, token :: rest, stop, parens⟩ := shorter
              have further := Parsed.left_of_run_eq_ok reads
              rw [← inside.left_leave] at further
              obtain ⟨arguments, closing, passed, closed, listed⟩ :=
                args_sound ⟨some token, rest, stop, parens + 1⟩ rfl reads
              have called := Expression.call (derived.weaken within)
                (ofKind?_eq_arguments.mp found) sameLine listed closed
              exact continuations_sound level .call (.call left args) start inside.leave bound
                (Nat.le_trans (Nat.min_le_right _ _) (by decide))
                (passes.trans passed.leave.cons) called inside.leave.stops_call more
          | operator op level'' =>
              obtain ⟨right, after, reads, more⟩ := Run.andThen_eq_ok.mp done
              have further := Parsed.left_of_run_eq_ok reads
              have listed := (infix_iff level'' token.kind op).mpr found
              have bounds := listed.bounds
              obtain ⟨tokens', passed, operand, stops'⟩ :=
                expr_sound level'' ⟨some token, rest, stop, parens⟩ (Nat.le_of_lt bounds.2) reads
              have grouped : Cursor.grouped ⟨some token, rest, stop, parens⟩ = start.grouped :=
                passes.grouped_eq
              rw [Nat.min_eq_left bounds.2, grouped] at operand
              have joined := Expression.binary (derived.weaken within) listed sameLine operand
              exact continuations_sound level level'' (.binary left op right) start after bound
                (Nat.le_trans (Nat.min_le_left _ _) (Nat.lt_of_not_le goesOn.1))
                (passes.trans passed.cons) joined stops' more
termination_by 6 * cursor.left

theorem operand_sound
    (cursor : Cursor)
    {value : Expr}
    {next : Cursor}
    (done : (operand cursor).run = .ok (value, next)) :
    OperandBetween cursor value next := by
  match cursor, done with
  | ⟨prev, [], stop, parens⟩, done =>
      rw [run_operand_nil] at done
      cases done
  | ⟨prev, token :: rest, stop, parens⟩, done =>
      have shorter := Cursor.left_next prev token rest stop parens
      have signed {op : UnaryOp} (sign : Sign token.kind op)
          (done : (expr .sign ⟨some token, rest, stop, parens⟩).run.map
            (.unary token.pos op) = .ok (value, next)) :
          OperandBetween ⟨prev, token :: rest, stop, parens⟩ value next := by
        obtain ⟨inner, reads, rfl⟩ := Run.map_eq_ok.mp done
        obtain ⟨tokens, passes, derived, stops⟩ :=
          expr_sound .sign ⟨some token, rest, stop, parens⟩ (Nat.le_refl _) reads
        exact ⟨_, .sign, passes.cons, Nat.le_refl _, .sign sign derived, stops⟩
      rw [run_operand_cons] at done
      split at done
      case h_1 kind =>
        split at done
        · rename_i inRange
          cases done
          exact .atom (.refl _) (.int kind inRange)
        · cases done
      case h_2 kind =>
        cases done
        exact .atom (.refl _) (.true kind)
      case h_3 kind =>
        cases done
        exact .atom (.refl _) (.false kind)
      case h_4 kind =>
        cases done
        exact .atom (.refl _) (.name kind)
      case h_5 kind => exact signed (kind ▸ .negate) done
      case h_6 kind => exact signed (kind ▸ .not) done
      case h_7 kind =>
        obtain ⟨after, inside, rfl⟩ := Run.mapCursor_eq_ok.mp done
        obtain ⟨inner, between, reads, more⟩ := Run.andThen_eq_ok.mp inside
        obtain ⟨closing, closes, rfl⟩ := Run.map_eq_ok.mp more
        have entered : Cursor.left ⟨some token, rest, stop, parens + 1⟩ + 1 ≤
            Cursor.left ⟨prev, token :: rest, stop, parens⟩ := shorter
        obtain ⟨tokens, passes, derived, _⟩ :=
          expr_sound .lowest ⟨some token, rest, stop, parens + 1⟩ (by decide) reads
        obtain ⟨passed, closed, _⟩ := Cursor.passes_of_expect closes
        exact .atom (passes.trans passed).leave (.group kind derived closed)
      case h_8 kind =>
        obtain ⟨tokens, passes, derived⟩ :=
          function_sound token kind ⟨some token, rest, stop, parens⟩ done
        exact .atom passes derived
      case h_9 kind =>
        obtain ⟨tokens, passes, derived⟩ :=
          branch_sound token kind ⟨some token, rest, stop, parens⟩ done
        exact .atom passes (.choice derived)
      case h_10 => cases done
      case h_11 => cases done
termination_by 6 * cursor.left + 2

theorem function_sound
    (word : Token)
    (kind : word.kind = .fnWord)
    (cursor : Cursor)
    {value : Expr}
    {next : Cursor}
    (done : (function word.pos cursor).run = .ok (value, next)) :
    ∃ tokens, cursor.Passes tokens next ∧
      Expression cursor.grouped .call (word :: tokens) value := by
  rw [run_function] at done
  obtain ⟨opening, inside, opens, rest⟩ := Run.andThen_eq_ok.mp done
  obtain ⟨params, behind, listed, rest⟩ := Run.andThen_eq_ok.mp rest
  obtain ⟨body, reads, rfl⟩ := Run.map_eq_ok.mp rest
  have shorter := Parsed.left_of_run_eq_ok opens
  have further := Parsed.left_of_run_eq_ok listed
  obtain ⟨passes, opened, _⟩ := Cursor.passes_of_expect opens
  obtain ⟨tokens, closing, passes', closed, names, distinct⟩ := params_sound inside listed
  obtain ⟨tokens', passes'', block⟩ := block_sound behind reads
  refine ⟨_, (passes.trans passes').trans passes'', ?_⟩
  simpa using Expression.function kind opened names distinct closed block
termination_by 6 * cursor.left

theorem branch_sound
    (word : Token)
    (kind : word.kind = .ifWord)
    (cursor : Cursor)
    {value : Expr}
    {next : Cursor}
    (done : (branch word.pos cursor).run = .ok (value, next)) :
    ∃ tokens, cursor.Passes tokens next ∧ Choice cursor.grouped (word :: tokens) value := by
  rw [run_branch] at done
  obtain ⟨condition, between, tests, rest⟩ := Run.andThen_eq_ok.mp done
  obtain ⟨thenArm, behind, reads, rest⟩ := Run.andThen_eq_ok.mp rest
  obtain ⟨elseArm, others, rfl⟩ := Run.map_eq_ok.mp rest
  have shorter := Parsed.left_of_run_eq_ok tests
  have further := Parsed.left_of_run_eq_ok reads
  obtain ⟨tokens, passes, test, _⟩ := expr_sound .lowest cursor (by decide) tests
  obtain ⟨first, passes', block⟩ := block_sound between reads
  obtain ⟨second, passes'', otherwise⟩ := elseArm_sound behind others
  rw [passes'.grouped_eq, passes.grouped_eq] at otherwise
  exact ⟨_, passes.trans (passes'.trans passes''), .choice kind test block otherwise⟩
termination_by 6 * cursor.left + 4

theorem elseArm_sound
    (cursor : Cursor)
    {value : Option Block}
    {next : Cursor}
    (done : (elseArm cursor).run = .ok (value, next)) :
    ∃ tokens, cursor.Passes tokens next ∧ ElseArm cursor.grouped tokens value := by
  match cursor, done with
  | ⟨prev, [], stop, parens⟩, done =>
      rw [run_elseArm_nil] at done
      cases done
      exact ⟨[], .refl _, .absent⟩
  | ⟨prev, token :: rest, stop, parens⟩, done =>
      have shorter := Cursor.left_next prev token rest stop parens
      have ofBlock
          (kind : token.kind = .elseWord)
          (done : (block ⟨some token, rest, stop, parens⟩).run.map some = .ok (value, next)) :
          ∃ tokens, Cursor.Passes ⟨prev, token :: rest, stop, parens⟩ tokens next ∧
            ElseArm (Cursor.grouped ⟨prev, token :: rest, stop, parens⟩) tokens value := by
        obtain ⟨body, reads, rfl⟩ := Run.map_eq_ok.mp done
        obtain ⟨tokens, passes, derived⟩ := block_sound ⟨some token, rest, stop, parens⟩ reads
        exact ⟨_, passes.cons, .block kind derived⟩
      rw [run_elseArm_cons] at done
      split at done
      · rename_i kind
        match equal : rest, done, ofBlock with
        | [], done, ofBlock => exact ofBlock kind done
        | token' :: rest', done, ofBlock =>
            have further : Cursor.left ⟨some token', rest', stop, parens⟩ + 2 ≤
                Cursor.left ⟨prev, token :: rest, stop, parens⟩ := by
              simp [Cursor.left, equal]
            dsimp only at done
            split at done
            · rename_i kind'
              obtain ⟨nested, reads, rfl⟩ := Run.map_eq_ok.mp done
              obtain ⟨tokens, passes, choice⟩ :=
                branch_sound token' kind' ⟨some token', rest', stop, parens⟩ reads
              exact ⟨_, passes.cons.cons, .chain kind choice⟩
            · exact ofBlock kind done
      · cases done
        exact ⟨[], .refl _, .absent⟩
termination_by 6 * cursor.left

theorem args_sound
    (cursor : Cursor)
    {values : List Expr}
    {next : Cursor}
    (grouped : cursor.grouped = true)
    (done : (args cursor).run = .ok (values, next)) :
    ∃ tokens closing, cursor.Passes (tokens ++ [closing]) next ∧
      closing.kind = .rightParen ∧ ArgumentList tokens values := by
  rw [run_args] at done
  split at done
  · obtain ⟨closing, closes, rfl⟩ := Run.map_eq_ok.mp done
    obtain ⟨passes, kind, _⟩ := Cursor.passes_of_expect closes
    exact ⟨[], closing, passes, kind, .none⟩
  · obtain ⟨tokens, closing, passes, closed, listed⟩ := arg_sound cursor grouped done
    exact ⟨tokens, closing, passes, closed, .some listed⟩
termination_by 6 * cursor.left + 5

theorem arg_sound
    (cursor : Cursor)
    {values : List Expr}
    {next : Cursor}
    (grouped : cursor.grouped = true)
    (done : (arg cursor).run = .ok (values, next)) :
    ∃ tokens closing, cursor.Passes (tokens ++ [closing]) next ∧
      closing.kind = .rightParen ∧ Arguments tokens values := by
  rw [run_arg] at done
  obtain ⟨first, between, reads, rest⟩ := Run.andThen_eq_ok.mp done
  obtain ⟨others, more, rfl⟩ := Run.map_eq_ok.mp rest
  have shorter := Parsed.left_of_run_eq_ok reads
  obtain ⟨tokens, passes, derived, _⟩ := expr_sound .lowest cursor (by decide) reads
  rw [grouped] at derived
  obtain ⟨tokens', closing, passes', closed, extend⟩ :=
    moreArgs_sound between (passes.grouped_eq.trans grouped) more
  refine ⟨tokens ++ tokens', closing, ?_, closed, extend derived⟩
  rw [List.append_assoc]
  exact passes.trans passes'
termination_by 6 * cursor.left + 4

/-- What is read behind an argument goes on with it. -/
theorem moreArgs_sound
    (cursor : Cursor)
    {values : List Expr}
    {next : Cursor}
    (grouped : cursor.grouped = true)
    (done : (moreArgs cursor).run = .ok (values, next)) :
    ∃ tokens closing, cursor.Passes (tokens ++ [closing]) next ∧
      closing.kind = .rightParen ∧
      ∀ {tokens' : List Token} {first : Expr}, Expression .true .equality tokens' first →
        Arguments (tokens' ++ tokens) (first :: values) := by
  rw [run_moreArgs] at done
  split at done
  · obtain ⟨closing, closes, rfl⟩ := Run.map_eq_ok.mp done
    obtain ⟨passes, kind, _⟩ := Cursor.passes_of_expect closes
    refine ⟨[], closing, passes, kind, ?_⟩
    intro tokens' first derived
    rw [List.append_nil]
    exact .one derived
  · split at done
    · obtain ⟨comma, between, reads, rest⟩ := Run.andThen_eq_ok.mp done
      have shorter := Parsed.left_of_run_eq_ok reads
      obtain ⟨passed, kind, _⟩ := Cursor.passes_of_expect reads
      obtain ⟨tokens, closing, passes, closed, listed⟩ :=
        arg_sound between (passed.grouped_eq.trans grouped) rest
      exact ⟨comma :: tokens, closing, passed.trans passes, closed,
        fun derived => .more derived kind listed⟩
    · cases done
termination_by 6 * cursor.left

theorem block_sound
    (cursor : Cursor)
    {value : Block}
    {next : Cursor}
    (done : (block cursor).run = .ok (value, next)) :
    ∃ tokens, cursor.Passes tokens next ∧ Braces tokens value := by
  rw [run_block] at done
  obtain ⟨opening, inside, opens, rest⟩ := Run.andThen_eq_ok.mp done
  obtain ⟨behind, reads, rfl⟩ := Run.mapCursor_eq_ok.mp rest
  have shorter := Parsed.left_of_run_eq_ok opens
  rw [← inside.left_withParens 0] at shorter
  obtain ⟨passes, opened, _⟩ := Cursor.passes_of_expect opens
  obtain ⟨tokens, closing, passes', closed, derived⟩ :=
    statements_sound (inside.withParens 0) rfl reads
  exact ⟨_, passes.trans (passes'.withParens inside.parens), .block opened derived closed⟩
termination_by 6 * cursor.left

/-- Statements are read up to the brace that closes them. -/
theorem statements_sound
    (cursor : Cursor)
    {stmts : List Stmt}
    {next : Cursor}
    (ungrouped : cursor.grouped = false)
    (done : (statements cursor).run = .ok (stmts, next)) :
    ∃ tokens closing, cursor.Passes (tokens ++ [closing]) next ∧
      closing.kind = .rightBrace ∧ Statements tokens stmts := by
  have bound := cursor.left_skipSemicolons_le
  rw [run_statements] at done
  split at done
  · obtain ⟨closing, closes, rfl⟩ := Run.map_eq_ok.mp done
    obtain ⟨passed, kind, _⟩ := Cursor.passes_of_expect closes
    obtain ⟨tokens, passes, derived⟩ :=
      statements_of_skipSemicolons (.refl cursor.skipSemicolons) .nil
    exact ⟨tokens, closing, passes.trans passed, kind, derived⟩
  · obtain ⟨stmt, between, reads, rest⟩ := Run.andThen_eq_ok.mp done
    obtain ⟨_, after, ends, rest⟩ := Run.andThen_eq_ok.mp rest
    obtain ⟨others, more, rfl⟩ := Run.map_eq_ok.mp rest
    have shorter := Parsed.left_of_run_eq_ok reads
    have further := Parsed.left_of_run_eq_ok ends
    obtain ⟨tokens, passes, first, stops⟩ :=
      statement_sound cursor.skipSemicolons ungrouped reads
    have ungrouped' : after.grouped = false := by
      rw [grouped_of_endStatement ends, passes.grouped_eq]
      exact ungrouped
    obtain ⟨tokens', closing, passes', closed, others⟩ := statements_sound after ungrouped' more
    obtain ⟨last, passes', passed⟩ := passes'.split
    obtain ⟨tokens'', passes'', derived⟩ :=
      statements_of_endStatement passes first stops ends passes' others (by decide)
        (by simp [StartsStatement, StartsExpression])
    obtain ⟨tokens, passes, derived⟩ := statements_of_skipSemicolons passes'' derived
    exact ⟨tokens, closing, passes.trans passed, closed, derived⟩
termination_by 6 * cursor.left + 5

/-- A statement is a choice, or is read to where nothing can follow it. -/
theorem statement_sound
    (cursor : Cursor)
    {stmt : Stmt}
    {next : Cursor}
    (ungrouped : cursor.grouped = false)
    (done : (statement cursor).run = .ok (stmt, next)) :
    ∃ tokens, cursor.Passes tokens next ∧ Statement tokens stmt ∧
      (StartsChoice tokens ∨ next.Stops .lowest) := by
  match cursor, done with
  | ⟨prev, [], stop, parens⟩, done =>
      rw [run_statement_nil] at done
      obtain ⟨value, reads, rfl⟩ := Run.map_eq_ok.mp done
      rw [run_expr, run_operand_nil] at reads
      cases reads
  | ⟨prev, token :: rest, stop, parens⟩, done =>
      have shorter := Cursor.left_next prev token rest stop parens
      have ofExpr
          (kind : token.kind ≠ .ifWord)
          (done : (expr .lowest ⟨prev, token :: rest, stop, parens⟩).run.map .expr =
            .ok (stmt, next)) :
          ∃ tokens, Cursor.Passes ⟨prev, token :: rest, stop, parens⟩ tokens next ∧
            Statement tokens stmt ∧ (StartsChoice tokens ∨ next.Stops .lowest) := by
        obtain ⟨value, reads, rfl⟩ := Run.map_eq_ok.mp done
        obtain ⟨tokens, passes, derived, stops⟩ :=
          expr_sound .lowest ⟨prev, token :: rest, stop, parens⟩ (by decide) reads
        rw [ungrouped] at derived
        refine ⟨tokens, passes, .expr ?_ derived, .inr stops⟩
        rintro ⟨first, heads, starts⟩
        obtain rfl := passes.current_eq heads
        exact kind starts
      rw [run_statement_cons] at done
      split at done
      case h_1 kind =>
        obtain ⟨value, reads, rfl⟩ := Run.map_eq_ok.mp done
        obtain ⟨tokens, passes, derived, stops⟩ :=
          expr_sound .lowest ⟨some token, rest, stop, parens⟩ (by decide) reads
        exact ⟨_, passes.cons, .result kind (ungrouped ▸ derived), .inr stops⟩
      case h_2 kind =>
        obtain ⟨name, inside, names, done⟩ := Run.andThen_eq_ok.mp done
        obtain ⟨mark, behind, marks, done⟩ := Run.andThen_eq_ok.mp done
        obtain ⟨value, reads, rfl⟩ := Run.map_eq_ok.mp done
        have further := Parsed.left_of_run_eq_ok names
        have beyond := Parsed.left_of_run_eq_ok marks
        obtain ⟨passes, named, _⟩ := Cursor.passes_of_expect names
        obtain ⟨passes', marked, _⟩ := Cursor.passes_of_expect marks
        obtain ⟨tokens, passes'', derived, stops⟩ :=
          expr_sound .lowest behind (by decide) reads
        rw [passes'.grouped_eq, passes.grouped_eq] at derived
        exact ⟨_, (passes.trans (passes'.trans passes'')).cons,
          .declare kind named marked (ungrouped ▸ derived), .inr stops⟩
      case h_3 kind =>
        have plain : token.kind ≠ .ifWord := by simp [kind]
        match equal : rest, done, ofExpr with
        | [], done, ofExpr => exact ofExpr plain done
        | mark :: rest', done, ofExpr =>
            have further : Cursor.left ⟨some mark, rest', stop, parens⟩ + 2 ≤
                Cursor.left ⟨prev, token :: rest, stop, parens⟩ := by
              simp [Cursor.left, equal]
            dsimp only at done
            split at done
            · rename_i marked
              obtain ⟨value, reads, rfl⟩ := Run.map_eq_ok.mp done
              obtain ⟨tokens, passes, derived, stops⟩ :=
                expr_sound .lowest ⟨some mark, rest', stop, parens⟩ (by decide) reads
              exact ⟨_, passes.cons.cons, .assign kind marked (ungrouped ▸ derived), .inr stops⟩
            · exact ofExpr plain done
      case h_4 kind =>
        obtain ⟨value, reads, rfl⟩ := Run.map_eq_ok.mp done
        obtain ⟨tokens, passes, derived⟩ :=
          branch_sound token kind ⟨some token, rest, stop, parens⟩ reads
        exact ⟨_, passes.cons, .choice (ungrouped ▸ derived), .inl ⟨token, rfl, kind⟩⟩
      case h_5 notIf => exact ofExpr notIf done
termination_by 6 * cursor.left + 4

end

/-- A program without errors is that of all its tokens. -/
theorem program_sound
    (cursor : Cursor)
    (ungrouped : cursor.grouped = false)
    (clean : (program cursor).errors = []) :
    Statements cursor.rest (program cursor).program := by
  have bound := cursor.left_skipSemicolons_le
  rw [program_eq] at clean ⊢
  split at clean
  · rename_i ended
    obtain ⟨tokens, passes, derived⟩ :=
      statements_of_skipSemicolons (.refl cursor.skipSemicolons) .nil
    rw [if_pos ended, passes.rest, ended, List.append_nil]
    exact derived
  · rename_i more
    rw [if_neg more]
    split at clean
    · rename_i stmt next closes
      have shorter := Parsed.left_of_run_eq_ok closes
      rw [run_closedStatement] at closes
      obtain ⟨stmt', between, reads, rest⟩ := Run.andThen_eq_ok.mp closes
      obtain ⟨_, ends, rfl⟩ := Run.map_eq_ok.mp rest
      obtain ⟨tokens, passes, first, stops⟩ :=
        statement_sound cursor.skipSemicolons ungrouped reads
      have ungrouped' : next.grouped = false := by
        rw [grouped_of_endStatement ends, passes.grouped_eq]
        exact ungrouped
      have others := program_sound next ungrouped' clean
      obtain ⟨last, passes', ended⟩ := next.exists_passes_rest
      obtain ⟨tokens', passes'', derived⟩ :=
        statements_of_endStatement passes first stops ends passes' others (by decide)
          (by simp [StartsStatement, StartsExpression])
      obtain ⟨tokens'', passes, derived⟩ := statements_of_skipSemicolons passes'' derived
      rw [passes.rest, ended, List.append_nil]
      exact derived
    · cases clean
termination_by cursor.left

end Parser
end Siren
