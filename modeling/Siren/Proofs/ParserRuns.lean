import Siren.Program.Parser

/-!
# Runs of the parser

A result of reading carries the proof that the cursor has moved on.  Its view
`run` forgets these proofs: it is a value with the cursor after it, or a syntax
error with the cursor where reading stopped.  Each reading function is given an
equation for its runs in which sequences are those of `Except`.  Proofs about
the parser use these equations and never unfold the functions themselves.
-/

namespace Siren

/-- What reading gives, without the proof of progress. -/
abbrev Run (α : Type) := Except (SyntaxError × Cursor) (α × Cursor)

namespace Run

variable {α β : Type}

/-- The cursor where a run has ended. -/
def cursor : Run α → Cursor
  | .ok (_, next) => next
  | .error (_, stop) => stop

/-- The run that complains about the next token. -/
def complain (cursor : Cursor) (complaint : Complaint) : Run α :=
  .error (.about cursor.current complaint, cursor)

/-- The run with its cursor changed, whether it failed or not. -/
def mapCursor (change : Cursor → Cursor) : Run α → Run α
  | .ok (value, next) => .ok (value, change next)
  | .error (error, stop) => .error (error, change stop)

/-- The run with its value changed. -/
def map (change : α → β) : Run α → Run β
  | .ok (value, next) => .ok (change value, next)
  | .error (error, stop) => .error (error, stop)

/-- Reads on where a run has ended, unless it failed. -/
def andThen (first : Run α) (second : α → Cursor → Run β) : Run β :=
  match first with
  | .ok (value, next) => second value next
  | .error (error, stop) => .error (error, stop)

@[simp] theorem andThen_ok (value : α) (next : Cursor) (second : α → Cursor → Run β) :
    andThen (.ok (value, next)) second = second value next := rfl

@[simp] theorem andThen_error
    (failure : SyntaxError × Cursor)
    (second : α → Cursor → Run β) :
    andThen (.error failure) second = .error failure := rfl

@[simp] theorem map_ok (change : α → β) (value : α) (next : Cursor) :
    map change (.ok (value, next)) = .ok (change value, next) := rfl

@[simp] theorem map_error (change : α → β) (failure : SyntaxError × Cursor) :
    map change (.error failure) = .error failure := rfl

@[simp] theorem mapCursor_ok (change : Cursor → Cursor) (value : α) (next : Cursor) :
    mapCursor change (.ok (value, next)) = .ok (value, change next) := rfl

@[simp] theorem mapCursor_error
    (change : Cursor → Cursor)
    (error : SyntaxError)
    (stop : Cursor) :
    mapCursor change (.error (error, stop) : Run α) = .error (error, change stop) := rfl

/-- A sequence succeeds exactly when both parts do. -/
theorem andThen_eq_ok
    {first : Run α}
    {second : α → Cursor → Run β}
    {result : β × Cursor} :
    first.andThen second = .ok result ↔
      ∃ value next, first = .ok (value, next) ∧ second value next = .ok result := by
  rcases first with ⟨error, stop⟩ | ⟨value, next⟩
  · simp [andThen]
  · constructor
    · intro done
      exact ⟨value, next, rfl, done⟩
    · rintro ⟨_, _, equal, done⟩
      obtain ⟨rfl, rfl⟩ := Prod.mk.inj (Except.ok.inj equal)
      exact done

theorem map_eq_ok
    {change : α → β}
    {run : Run α}
    {value : β}
    {next : Cursor} :
    run.map change = .ok (value, next) ↔
      ∃ given, run = .ok (given, next) ∧ change given = value := by
  rcases run with ⟨error, stop⟩ | ⟨given, after⟩
  · simp [map]
  · simp only [map, Except.ok.injEq, Prod.mk.injEq]
    constructor
    · rintro ⟨rfl, rfl⟩
      exact ⟨given, ⟨rfl, rfl⟩, rfl⟩
    · rintro ⟨_, ⟨rfl, rfl⟩, rfl⟩
      exact ⟨rfl, rfl⟩

theorem mapCursor_eq_ok
    {change : Cursor → Cursor}
    {run : Run α}
    {value : α}
    {next : Cursor} :
    run.mapCursor change = .ok (value, next) ↔
      ∃ after, run = .ok (value, after) ∧ change after = next := by
  rcases run with ⟨error, stop⟩ | ⟨given, after⟩
  · simp [mapCursor]
  · simp only [mapCursor, Except.ok.injEq, Prod.mk.injEq]
    constructor
    · rintro ⟨rfl, rfl⟩
      exact ⟨after, ⟨rfl, rfl⟩, rfl⟩
    · rintro ⟨_, ⟨rfl, rfl⟩, rfl⟩
      exact ⟨rfl, rfl⟩

end Run

namespace Parsed

variable {α β : Type} {least more : Nat} {start next : Cursor}

/-- The result of reading without the proof of progress. -/
def run : Parsed least α start → Run α
  | .done value next _ => .ok (value, next)
  | .failed error stop _ => .error (error, stop)

/-- A successful run has passed the tokens it promised to pass. -/
theorem left_of_run_eq_ok
    {parsed : Parsed least α start}
    {value : α}
    {after : Cursor}
    (done : parsed.run = .ok (value, after)) :
    after.left + least ≤ start.left := by
  cases parsed with
  | done value' after' progress =>
      simp only [run, Except.ok.injEq, Prod.mk.injEq] at done
      rw [← done.2]
      exact progress
  | failed error stop bound => simp [run] at done

@[simp] theorem run_complain (complaint : Complaint) :
    (complain start complaint : Parsed least α start).run = Run.complain start complaint := rfl

@[simp] theorem run_map (change : α → β) (parsed : Parsed least α start) :
    (parsed.map change).run = parsed.run.map change := by
  cases parsed <;> rfl

@[simp] theorem run_andThen
    (first : Parsed least α start)
    (second : (value : α) → (next : Cursor) → Parsed more β next) :
    (first.andThen fun value next _ => second value next).run =
      first.run.andThen fun value next => (second value next).run := by
  cases first with
  | done value next progress =>
      simp only [andThen, run, Run.andThen_ok]
      cases second value next <;> rfl
  | failed error stop bound => rfl

@[simp] theorem run_after
    (parsed : Parsed least α next)
    (shorter : next.left + 1 ≤ start.left) :
    (parsed.after shorter).run = parsed.run := by
  cases parsed <;> rfl

@[simp] theorem run_since (parsed : Parsed least α next) (earlier : next.left ≤ start.left) :
    (parsed.since earlier).run = parsed.run := by
  cases parsed <;> rfl

@[simp] theorem run_relax (parsed : Parsed least α start) : parsed.relax.run = parsed.run := by
  cases parsed <;> rfl

@[simp] theorem run_leave (parsed : Parsed least α start) :
    parsed.leave.run = parsed.run.mapCursor Cursor.leave := by
  cases parsed <;> rfl

@[simp] theorem run_withParens (parens : Nat) (parsed : Parsed least α start) :
    (parsed.withParens parens).run = parsed.run.mapCursor (Cursor.withParens · parens) := by
  cases parsed <;> rfl

end Parsed

/-! ## Tokens -/

theorem Cursor.front_nil (prev : Option Token) (stop : Position) (parens : Nat) :
    Cursor.front ⟨prev, [], stop, parens⟩ = .atEnd := rfl

theorem Cursor.left_next
    (prev : Option Token) (token : Token) (rest : List Token) (stop : Position)
    (parens : Nat) :
    Cursor.left ⟨some token, rest, stop, parens⟩ + 1 ≤
      Cursor.left ⟨prev, token :: rest, stop, parens⟩ := by
  simp [Cursor.left]

theorem Cursor.front_cons
    (prev : Option Token) (token : Token) (rest : List Token) (stop : Position)
    (parens : Nat) :
    Cursor.front ⟨prev, token :: rest, stop, parens⟩ =
      .token token ⟨some token, rest, stop, parens⟩
        (Cursor.left_next prev token rest stop parens) := rfl

section Tokens

variable (prev : Option Token) (token : Token) (rest : List Token) (stop : Position)
  (parens : Nat) (wanted : Kind)

theorem Cursor.run_expect_nil :
    (Cursor.expect ⟨prev, [], stop, parens⟩ wanted).run =
      Run.complain ⟨prev, [], stop, parens⟩ (.missing wanted (.endAt stop)) := rfl

theorem Cursor.run_expect_cons :
    (Cursor.expect ⟨prev, token :: rest, stop, parens⟩ wanted).run =
      if token.kind = wanted then
        .ok (token, ⟨some token, rest, stop, parens⟩)
      else
        Run.complain ⟨prev, token :: rest, stop, parens⟩ (.missing wanted token) := by
  rw [Cursor.expect, Cursor.front_cons]
  dsimp only
  split
  · rfl
  · rfl

end Tokens

namespace Cursor

/-- A token of the kind wanted is read. -/
theorem expect_of_kind
    {cursor : Cursor}
    {wanted : Kind}
    (more : wanted ≠ .endOfInput)
    (kind : cursor.kind = wanted) :
    ∃ next, (cursor.expect wanted).run = .ok (cursor.current, next) := by
  obtain ⟨prev, rest, stop, parens⟩ := cursor
  cases rest with
  | nil => exact absurd kind.symm more
  | cons token rest => exact ⟨_, by rw [run_expect_cons]; exact if_pos kind⟩

/-- Semicolons ahead do not count. -/
theorem skipSemicolons_cons
    (prev : Option Token) {token : Token} (rest : List Token) (stop : Position)
    (parens : Nat)
    (kind : token.kind = .semicolon) :
    skipSemicolons ⟨prev, token :: rest, stop, parens⟩ =
      skipSemicolons ⟨some token, rest, stop, parens⟩ := by
  simp [skipSemicolons, drop, kind, List.getLast?_cons]

theorem skipSemicolons_of_kind_ne
    {cursor : Cursor}
    (kind : cursor.kind ≠ .semicolon) :
    cursor.skipSemicolons = cursor := by
  obtain ⟨prev, rest, stop, parens⟩ := cursor
  cases rest with
  | nil => rfl
  | cons token rest =>
      have kind : token.kind ≠ .semicolon := kind
      simp [skipSemicolons, drop, kind]

theorem kind_skipSemicolons_ne (cursor : Cursor) :
    cursor.skipSemicolons.kind ≠ .semicolon := by
  obtain ⟨prev, rest, stop, parens⟩ := cursor
  induction rest generalizing prev with
  | nil => exact nofun
  | cons token rest inductionHypothesis =>
      by_cases kind : token.kind = .semicolon
      · rw [skipSemicolons_cons prev rest stop parens kind]
        exact inductionHypothesis (some token)
      · rw [skipSemicolons_of_kind_ne (by exact kind)]
        exact kind

end Cursor

namespace Parser

/-! ## Parameters -/

theorem run_param (seen : List Text) (cursor : Cursor) :
    (param seen cursor).run =
      if cursor.current.lexeme ∈ seen then
        Run.complain cursor (.duplicateParameter cursor.current.lexeme)
      else
        (cursor.expect .identifier).run.andThen fun token next =>
          (moreParams (token.lexeme :: seen) next).run.map (token.lexeme :: ·) := by
  rw [param]
  split
  · simp
  · simp

theorem run_moreParams (seen : List Text) (cursor : Cursor) :
    (moreParams seen cursor).run =
      if cursor.kind = .rightParen then
        (cursor.expect .rightParen).run.map fun _ => []
      else
        (cursor.expect .comma).run.andThen fun _ next => (param seen next).run := by
  rw [moreParams]
  split
  · simp
  · simp

theorem run_params (cursor : Cursor) :
    (params cursor).run =
      if cursor.kind = .rightParen then
        (cursor.expect .rightParen).run.map fun _ => []
      else
        (param [] cursor).run := by
  rw [params]
  split
  · simp
  · rfl

theorem run_endStatement (closing : Kind) (cursor : Cursor) :
    (endStatement closing cursor).run =
      if cursor.kind = .semicolon then
        (cursor.expect .semicolon).run.map fun _ => ()
      else if cursor.kind = closing || cursor.follows .rightBrace then
        .ok ((), cursor)
      else if cursor.kind = .endOfInput then
        Run.complain cursor (.missing closing cursor.current)
      else
        Run.complain cursor (.unclosedStatement cursor.current) := by
  rw [endStatement]
  split
  · simp
  · split
    · rfl
    · split
      · rfl
      · rfl

/-! ## Expressions -/

theorem run_expr (level : Level) (cursor : Cursor) :
    (expr level cursor).run =
      (operand cursor).run.andThen fun left next => (continuations level left next).run := by
  rw [expr]
  simp

theorem run_continuations_nil
    (level : Level) (left : Expr) (prev : Option Token) (stop : Position) (parens : Nat) :
    (continuations level left ⟨prev, [], stop, parens⟩).run =
      .ok (left, ⟨prev, [], stop, parens⟩) := by
  rw [continuations]
  rfl

theorem run_continuations_cons
    (level : Level) (left : Expr) (prev : Option Token) (token : Token) (rest : List Token)
    (stop : Position) (parens : Nat) :
    (continuations level left ⟨prev, token :: rest, stop, parens⟩).run =
      match Continuation.ofKind? token.kind with
      | none => .ok (left, ⟨prev, token :: rest, stop, parens⟩)
      | some continuation =>
        if continuation.level ≤ level ||
            Cursor.endsLine ⟨prev, token :: rest, stop, parens⟩ then
          .ok (left, ⟨prev, token :: rest, stop, parens⟩)
        else
          match continuation with
          | .arguments =>
            ((args ⟨some token, rest, stop, parens + 1⟩).run.mapCursor Cursor.leave).andThen
              fun args after => (continuations level (.call left args) after).run
          | .operator op level' =>
            (expr level' ⟨some token, rest, stop, parens⟩).run.andThen
              fun right after => (continuations level (.binary left op right) after).run := by
  rw [continuations, Cursor.front_cons]
  dsimp only
  cases Continuation.ofKind? token.kind with
  | none => rfl
  | some continuation =>
      dsimp only
      split
      · rfl
      · cases continuation with
        | arguments =>
            rw [Parsed.run_relax]
            refine (Parsed.run_after _ _).trans ?_
            simp only [Parsed.run_andThen, Parsed.run_leave, Cursor.enter]
        | operator op level' =>
            simp only [Parsed.run_relax, Parsed.run_after, Parsed.run_andThen]

theorem run_operand_nil (prev : Option Token) (stop : Position) (parens : Nat) :
    (operand ⟨prev, [], stop, parens⟩).run =
      Run.complain ⟨prev, [], stop, parens⟩ .missingExpression := by
  rw [operand]
  rfl

theorem run_operand_cons
    (prev : Option Token) (token : Token) (rest : List Token) (stop : Position)
    (parens : Nat) :
    (operand ⟨prev, token :: rest, stop, parens⟩).run =
      match token.kind with
      | .integer =>
        match token.lexeme.toInt64? with
        | some value => .ok (.int token.pos value, ⟨some token, rest, stop, parens⟩)
        | none => Run.complain ⟨prev, token :: rest, stop, parens⟩ (.outOfRange token.lexeme)
      | .trueWord => .ok (.bool token.pos true, ⟨some token, rest, stop, parens⟩)
      | .falseWord => .ok (.bool token.pos false, ⟨some token, rest, stop, parens⟩)
      | .identifier => .ok (.name token.pos token.lexeme, ⟨some token, rest, stop, parens⟩)
      | .minus =>
        (expr .sign ⟨some token, rest, stop, parens⟩).run.map (.unary token.pos .negate)
      | .bang =>
        (expr .sign ⟨some token, rest, stop, parens⟩).run.map (.unary token.pos .not)
      | .leftParen =>
        ((expr .lowest ⟨some token, rest, stop, parens + 1⟩).run.andThen fun value after =>
          (after.expect .rightParen).run.map fun _ => value).mapCursor Cursor.leave
      | .fnWord => (function token.pos ⟨some token, rest, stop, parens⟩).run
      | .ifWord => (branch token.pos ⟨some token, rest, stop, parens⟩).run
      | .illegal =>
        Run.complain ⟨prev, token :: rest, stop, parens⟩ (.illegalCharacter token.lexeme)
      | _ => Run.complain ⟨prev, token :: rest, stop, parens⟩ (.unexpected token) := by
  rw [operand, Cursor.front_cons]
  dsimp only
  cases token.kind <;>
    simp only [Parsed.run_after, Parsed.run_map, Parsed.run_complain]
  case integer =>
      cases token.lexeme.toInt64? with
      | none => rfl
      | some value => rfl
  case leftParen =>
      refine (Parsed.run_after _ _).trans ?_
      simp only [Parsed.run_leave, Parsed.run_andThen, Parsed.run_map, Cursor.enter]
  all_goals rfl

theorem run_function (pos : Position) (cursor : Cursor) :
    (function pos cursor).run =
      (cursor.expect .leftParen).run.andThen fun _ next =>
        (params next).run.andThen fun params next =>
          (block next).run.map fun body => .function pos params body := by
  rw [function]
  simp

theorem run_branch (pos : Position) (cursor : Cursor) :
    (branch pos cursor).run =
      (expr .lowest cursor).run.andThen fun condition next =>
        (block next).run.andThen fun thenArm next =>
          (elseArm next).run.map fun elseArm => .branch pos condition thenArm elseArm := by
  rw [branch]
  simp

theorem run_elseArm_nil (prev : Option Token) (stop : Position) (parens : Nat) :
    (elseArm ⟨prev, [], stop, parens⟩).run = .ok (none, ⟨prev, [], stop, parens⟩) := by
  rw [elseArm]
  rfl

theorem run_elseArm_cons
    (prev : Option Token) (token : Token) (rest : List Token) (stop : Position)
    (parens : Nat) :
    (elseArm ⟨prev, token :: rest, stop, parens⟩).run =
      if token.kind = .elseWord then
        match rest with
        | [] => (block ⟨some token, [], stop, parens⟩).run.map some
        | token' :: rest' =>
          if token'.kind = .ifWord then
            (branch token'.pos ⟨some token', rest', stop, parens⟩).run.map
              fun nested => some [.expr nested]
          else
            (block ⟨some token, token' :: rest', stop, parens⟩).run.map some
      else
        .ok (none, ⟨prev, token :: rest, stop, parens⟩) := by
  rw [elseArm, Cursor.front_cons]
  dsimp only
  split
  · cases rest with
    | nil =>
        rw [Cursor.front_nil]
        simp only [Parsed.run_relax, Parsed.run_after, Parsed.run_map]
    | cons token' rest' =>
        rw [Cursor.front_cons]
        dsimp only
        split
        · simp only [Parsed.run_relax, Parsed.run_after, Parsed.run_map]
        · simp only [Parsed.run_relax, Parsed.run_after, Parsed.run_map]
  · rfl

/-! ## Arguments -/

theorem run_args (cursor : Cursor) :
    (args cursor).run =
      if cursor.kind = .rightParen then
        (cursor.expect .rightParen).run.map fun _ => []
      else
        (arg cursor).run := by
  rw [args]
  split
  · simp
  · rfl

theorem run_arg (cursor : Cursor) :
    (arg cursor).run =
      (expr .lowest cursor).run.andThen fun first next =>
        (moreArgs next).run.map (first :: ·) := by
  rw [arg]
  simp

theorem run_moreArgs (cursor : Cursor) :
    (moreArgs cursor).run =
      if cursor.kind = .rightParen then
        (cursor.expect .rightParen).run.map fun _ => []
      else if cursor.kind = .comma || cursor.kind = .endOfInput then
        (cursor.expect .comma).run.andThen fun _ next => (arg next).run
      else
        Run.complain cursor (.missing .rightParen cursor.current) := by
  rw [moreArgs]
  split
  · simp
  · split
    · simp
    · rfl

/-! ## Statements -/

theorem run_block (cursor : Cursor) :
    (block cursor).run =
      (cursor.expect .leftBrace).run.andThen fun _ next =>
        (statements (next.withParens 0)).run.mapCursor (Cursor.withParens · next.parens) := by
  rw [block, Parsed.run_andThen]
  congr
  funext _ next
  exact (Parsed.run_since _ _).trans (Parsed.run_withParens _ _)

theorem run_statements (cursor : Cursor) :
    (statements cursor).run =
      if cursor.skipSemicolons.kind = .rightBrace ||
          cursor.skipSemicolons.kind = .endOfInput then
        (cursor.skipSemicolons.expect .rightBrace).run.map fun _ => []
      else
        (statement cursor.skipSemicolons).run.andThen fun first next =>
          (endStatement .rightBrace next).run.andThen fun _ next =>
            (statements next).run.map (first :: ·) := by
  rw [statements]
  split
  · simp only [Parsed.run_since, Parsed.run_map]
  · simp only [Parsed.run_since, Parsed.run_andThen, Parsed.run_map]

theorem run_statement_nil (prev : Option Token) (stop : Position) (parens : Nat) :
    (statement ⟨prev, [], stop, parens⟩).run =
      (expr .lowest ⟨prev, [], stop, parens⟩).run.map .expr := by
  rw [statement, Cursor.front_nil]
  simp only [Parsed.run_map]

theorem run_statement_cons
    (prev : Option Token) (token : Token) (rest : List Token) (stop : Position)
    (parens : Nat) :
    (statement ⟨prev, token :: rest, stop, parens⟩).run =
      match token.kind with
      | .returnWord =>
        (expr .lowest ⟨some token, rest, stop, parens⟩).run.map (.result token.pos)
      | .letWord =>
        (Cursor.expect ⟨some token, rest, stop, parens⟩ .identifier).run.andThen
          fun name next =>
            (next.expect .assign).run.andThen fun _ next =>
              (expr .lowest next).run.map (.declare token.pos name.lexeme)
      | .identifier =>
        match rest with
        | [] => (expr .lowest ⟨prev, [token], stop, parens⟩).run.map .expr
        | mark :: rest' =>
          if mark.kind = .assign then
            (expr .lowest ⟨some mark, rest', stop, parens⟩).run.map
              (.assign token.pos token.lexeme)
          else
            (expr .lowest ⟨prev, token :: mark :: rest', stop, parens⟩).run.map .expr
      | .ifWord => (branch token.pos ⟨some token, rest, stop, parens⟩).run.map .expr
      | _ => (expr .lowest ⟨prev, token :: rest, stop, parens⟩).run.map .expr := by
  rw [statement, Cursor.front_cons]
  dsimp only
  cases token.kind <;>
    simp only [Parsed.run_after, Parsed.run_map, Parsed.run_andThen]
  case identifier =>
    cases rest with
    | nil =>
        rw [Cursor.front_nil]
        simp only [Parsed.run_map]
    | cons mark rest' =>
        rw [Cursor.front_cons]
        dsimp only
        split
        · simp only [Parsed.run_after, Parsed.run_map]
        · simp only [Parsed.run_map]

theorem run_closedStatement (cursor : Cursor) :
    (closedStatement cursor).run =
      (statement cursor).run.andThen fun stmt next =>
        (endStatement .endOfInput next).run.map fun _ => stmt := by
  rw [closedStatement]
  simp

/-- The program from a cursor: what its first statement gives, and the program
behind it or behind the place of recovery. -/
theorem program_eq (cursor : Cursor) :
    program cursor =
      if cursor.skipSemicolons.rest = [] then
        ⟨[], []⟩
      else
        match (closedStatement cursor.skipSemicolons).run with
        | .ok (stmt, next) => ⟨stmt :: (program next).program, (program next).errors⟩
        | .error (error, stop) =>
          ⟨(program stop.recover).program, error :: (program stop.recover).errors⟩ := by
  rw [program]
  by_cases ended : cursor.skipSemicolons.rest = []
  · have none : cursor.skipSemicolons.left = 0 := List.length_eq_zero_iff.mpr ended
    rw [dif_pos none, if_pos ended]
  · have some : ¬cursor.skipSemicolons.left = 0 := fun none =>
      ended (List.length_eq_zero_iff.mp none)
    rw [dif_neg some, if_neg ended]
    cases closedStatement cursor.skipSemicolons <;> rfl

end Parser
end Siren
