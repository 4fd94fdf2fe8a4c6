import Siren.Proofs.IncompleteInput
import Siren.Proofs.ParserProgress

/-!
# Statements on both sides of a semicolon

A semicolon outside of braces keeps the statements before it and behind it apart.  If
those before it are read without an error, they are read the same way with the
semicolon and more tokens behind them.  If one of them fails and no brace is opened,
reading goes on behind the semicolon as if nothing had been before it, whatever
parentheses were open.
-/

namespace Siren

/-! ## Runs up to a semicolon -/

/-- The second run, with a semicolon and more tokens ahead, gives what the first one
gives.  If that fails and is neither inside braces nor can come to a brace, the second one
fails at the same token, or at the semicolon if there was none. -/
structure Run.Cut {α : Type} (more : List Token) (stop : Position) (inside : Bool)
    (start : Cursor) (run run' : Run α) : Prop where
  behind : run.cursor.rest <:+ start.rest
  done : run.isOk = true → run' = run.mapCursor (Cursor.extend · more stop)
  failed : inside = false → (∀ token ∈ start.rest, token.kind ≠ .leftBrace) →
    run.isOk = false → run'.isOk = false ∧ run'.cursor.rest = run.cursor.rest ++ more

namespace Run.Cut

variable {α β : Type} {more : List Token} {stop : Position} {inside : Bool} {start : Cursor}

theorem ok
    {value : α}
    {cursor : Cursor}
    {run : Run α}
    (same : run = .ok (value, cursor.extend more stop)) :
    Cut more stop inside cursor (.ok (value, cursor)) run :=
  ⟨List.suffix_refl _, fun _ => same, fun _ _ failed => nomatch failed⟩

/-- Both runs fail where they start. -/
theorem stuck
    {error error' : SyntaxError}
    {cursor : Cursor} :
    Cut more stop inside cursor (.error (error, cursor) : Run α)
      (.error (error', cursor.extend more stop)) :=
  ⟨List.suffix_refl _, fun done => (nomatch done), fun _ _ _ => ⟨rfl, rfl⟩⟩

/-- A run that fails inside braces says nothing. -/
theorem unclosed
    {error : SyntaxError}
    {cursor : Cursor}
    {run : Run α} :
    Cut more stop true cursor (.error (error, cursor)) run :=
  ⟨List.suffix_refl _, fun done => (nomatch done), fun outside => (nomatch outside)⟩

theorem map
    {run run' : Run α}
    (cut : Cut more stop inside start run run')
    (change : α → β) :
    Cut more stop inside start (run.map change) (run'.map change) := by
  rcases run with ⟨error, last⟩ | ⟨value, next⟩
  · refine ⟨cut.behind, fun done => (nomatch done), fun outside plain _ => ?_⟩
    rcases run' with ⟨error', last'⟩ | ⟨value', next'⟩
    · exact cut.failed outside plain rfl
    · exact cut.failed outside plain rfl
  · rw [cut.done rfl]
    exact ⟨cut.behind, fun _ => rfl, fun _ _ failed => (nomatch failed)⟩

/-- Changing how many parentheses are open changes neither. -/
theorem mapCursor
    {run run' : Run α}
    (cut : Cut more stop inside start run run')
    (change : Cursor → Cursor)
    (rest : ∀ cursor, (change cursor).rest = cursor.rest)
    (extend : ∀ cursor : Cursor, change (cursor.extend more stop) =
      (change cursor).extend more stop) :
    Cut more stop inside start (run.mapCursor change) (run'.mapCursor change) := by
  rcases run with ⟨error, last⟩ | ⟨value, next⟩
  · refine ⟨(rest last).symm ▸ cut.behind, fun done => absurd done Bool.false_ne_true,
      fun outside plain _ => ?_⟩
    have failed := cut.failed outside plain rfl
    rcases run' with ⟨error', last'⟩ | ⟨value', next'⟩
    · have place : last'.rest = last.rest ++ more := failed.2
      refine ⟨rfl, ?_⟩
      rw [mapCursor_error, mapCursor_error, cursor, cursor, rest, rest, place]
    · cases failed.1
  · rw [cut.done rfl]
    refine ⟨(rest next).symm ▸ cut.behind, fun _ => ?_, fun _ _ failed => ?_⟩
    · simp only [mapCursor_ok, extend]
    · cases failed

theorem andThen
    {first first' : Run α}
    {second second' : α → Cursor → Run β}
    (cut : Cut more stop inside start first first')
    (further : ∀ value next, first = .ok (value, next) →
      Cut more stop inside next (second value next) (second' value (next.extend more stop))) :
    Cut more stop inside start (first.andThen second) (first'.andThen second') := by
  rcases first with ⟨error, last⟩ | ⟨value, next⟩
  · refine ⟨cut.behind, fun done => (nomatch done), fun outside plain _ => ?_⟩
    have failed := cut.failed outside plain rfl
    rcases first' with ⟨error', last'⟩ | ⟨value', next'⟩
    · exact failed
    · exact nomatch failed.1
  · have further := further value next rfl
    have ahead : next.rest <:+ start.rest := cut.behind
    rw [cut.done rfl]
    exact ⟨further.behind.trans ahead, further.done, fun outside plain failed =>
      further.failed outside (fun token member => plain token (ahead.subset member)) failed⟩

/-- A run is cut the same way seen from an earlier place without a brace in between. -/
theorem since
    {next : Cursor}
    {run run' : Run α}
    (cut : Cut more stop inside next run run')
    (earlier : next.rest <:+ start.rest) :
    Cut more stop inside start run run' :=
  ⟨cut.behind.trans earlier, cut.done, fun outside plain failed =>
    cut.failed outside (fun token member => plain token (earlier.subset member)) failed⟩

end Run.Cut

/-- The steps of the parser keep to the semicolon. -/
theorem Run.cut_extension
    {more : List Token}
    (separating : Separating more)
    (stop : Position) :
    Run.Extension more stop (Run.Cut more stop) where
  ok _ _ := .ok rfl
  complain nonempty complaint := .stuck
  ended _ ends := .ok (ends separating.ending)
  stuck := by
    intro _ _ cursor parsed _ none stuck
    obtain ⟨error', rfl⟩ := stuck separating
    have left : cursor.left = 0 := List.length_eq_zero_iff.mpr none
    cases parsed with
    | done value next progress => omega
    | failed error last bound =>
        have ended : last.rest = [] := by
          rw [left, Nat.le_zero] at bound
          exact List.length_eq_zero_iff.mp bound
        refine ⟨?_, fun done => (nomatch done), fun _ _ _ => ⟨rfl, ?_⟩⟩
        · show last.rest <:+ cursor.rest
          rw [ended]
          exact List.nil_suffix
        · show cursor.rest ++ more = last.rest ++ more
          rw [ended, none]
  unclosed _ stuck := by
    obtain ⟨error, rfl⟩ := stuck
    exact .unclosed
  map change cut := cut.map change
  cons cut := cut.since (List.suffix_cons _ _)
  andThen cut further := cut.andThen further
  leave cut := (cut.mapCursor Cursor.leave (fun _ => rfl) fun _ => rfl).since (List.suffix_refl _)
  braces := by
    intro _ _ prev token rest stop' parens run run' opens cut
    have body := cut.mapCursor (Cursor.withParens · parens) (fun _ => rfl) fun _ => rfl
    refine ⟨body.behind.trans (List.suffix_cons token rest), body.done, fun _ plain => ?_⟩
    exact absurd opens (plain token List.mem_cons_self)

/-! ## The token read last -/

/-- Two runs are the same, or fail with the same error where each of them starts. -/
def Run.SameFrom {α : Type} (start start' : Cursor) (run run' : Run α) : Prop :=
  run' = run ∨ ∃ error, run = .error (error, start) ∧ run' = .error (error, start')

namespace Run.SameFrom

variable {α β : Type} {start start' : Cursor} {run run' : Run α}

theorem map
    (same : SameFrom start start' run run')
    (change : α → β) :
    SameFrom start start' (run.map change) (run'.map change) := by
  rcases same with rfl | ⟨error, rfl, rfl⟩
  · exact .inl rfl
  · exact .inr ⟨error, rfl, rfl⟩

theorem andThen
    (same : SameFrom start start' run run')
    (second : α → Cursor → Run β) :
    SameFrom start start' (run.andThen second) (run'.andThen second) := by
  rcases same with rfl | ⟨error, rfl, rfl⟩
  · exact .inl rfl
  · exact .inr ⟨error, rfl, rfl⟩

end Run.SameFrom

namespace Parser

section Previous

variable (prev prev' : Option Token) (rest : List Token) (stop : Position) (parens : Nat)

theorem operand_sameFrom :
    Run.SameFrom ⟨prev, rest, stop, parens⟩ ⟨prev', rest, stop, parens⟩
      (operand ⟨prev, rest, stop, parens⟩).run (operand ⟨prev', rest, stop, parens⟩).run := by
  cases rest with
  | nil =>
      rw [run_operand_nil, run_operand_nil]
      exact .inr ⟨_, rfl, rfl⟩
  | cons token rest =>
      rw [run_operand_cons, run_operand_cons]
      cases token.kind
      case integer =>
        dsimp only
        split
        · exact .inl rfl
        · exact .inr ⟨_, rfl, rfl⟩
      case trueWord | falseWord | identifier | minus | bang | leftParen | fnWord | ifWord =>
        exact .inl rfl
      all_goals exact .inr ⟨_, rfl, rfl⟩

theorem expr_sameFrom (level : Level) :
    Run.SameFrom ⟨prev, rest, stop, parens⟩ ⟨prev', rest, stop, parens⟩
      (expr level ⟨prev, rest, stop, parens⟩).run (expr level ⟨prev', rest, stop, parens⟩).run := by
  rw [run_expr, run_expr]
  exact (operand_sameFrom prev prev' rest stop parens).andThen _

theorem statement_sameFrom :
    Run.SameFrom ⟨prev, rest, stop, parens⟩ ⟨prev', rest, stop, parens⟩
      (statement ⟨prev, rest, stop, parens⟩).run (statement ⟨prev', rest, stop, parens⟩).run := by
  have whole := expr_sameFrom prev prev' rest stop parens .lowest
  cases rest with
  | nil =>
      rw [run_statement_nil, run_statement_nil]
      exact whole.map _
  | cons token rest =>
      rw [run_statement_cons, run_statement_cons]
      cases token.kind
      case returnWord | letWord | ifWord => exact .inl rfl
      case identifier =>
        cases rest with
        | nil => exact whole.map _
        | cons mark rest =>
            dsimp only
            split
            · exact .inl rfl
            · exact whole.map _
      all_goals exact whole.map _

/-- A program is read without regard to the token before it. -/
theorem program_prev :
    program ⟨prev, rest, stop, parens⟩ = program ⟨prev', rest, stop, parens⟩ := by
  cases rest with
  | nil => rw [program_eq_nil rfl, program_eq_nil rfl]
  | cons token rest =>
      rw [program_eq ⟨prev, _, _, _⟩, program_eq ⟨prev', _, _, _⟩]
      by_cases kind : token.kind = .semicolon
      · rw [Cursor.skipSemicolons_cons prev rest stop parens kind,
          Cursor.skipSemicolons_cons prev' rest stop parens kind]
      · rw [Cursor.skipSemicolons_of_kind_ne (by exact kind),
          Cursor.skipSemicolons_of_kind_ne (by exact kind), run_closedStatement,
          run_closedStatement]
        have same := (statement_sameFrom prev prev' (token :: rest) stop parens).andThen
          fun stmt next => (endStatement .endOfInput next).run.map fun _ => stmt
        -- If reading fails at once, recovering passes the first token.
        rcases same with equal | ⟨error, fails, fails'⟩
        · rw [equal]
        · have recovers : Cursor.recover ⟨prev, token :: rest, stop, parens⟩ =
              Cursor.recover ⟨prev', token :: rest, stop, parens⟩ := by
            obtain ⟨count, positive⟩ := Nat.exists_eq_succ_of_ne_zero
              (Cursor.statementLength_pos 0 token rest).ne'
            simp [Cursor.recover, Cursor.drop, positive, List.getLast?_cons]
          rw [fails, fails']
          simp only [recovers]

end Previous

/-- Semicolons before a program are of no account. -/
theorem program_skipSemicolons (cursor : Cursor) :
    program cursor.skipSemicolons = program cursor := by
  rw [program_eq cursor, program_eq cursor.skipSemicolons,
    Cursor.skipSemicolons_of_kind_ne cursor.kind_skipSemicolons_ne]

theorem program_semicolon
    {semicolon : Token}
    (kind : semicolon.kind = .semicolon)
    (prev : Option Token) (rest : List Token) (stop : Position) (parens : Nat) :
    program ⟨prev, semicolon :: rest, stop, parens⟩ = program ⟨none, rest, stop, parens⟩ := by
  rw [program_prev none (some semicolon), ← program_skipSemicolons ⟨prev, _, _, _⟩,
    Cursor.skipSemicolons_cons prev rest stop parens kind, program_skipSemicolons]

/-! ## Statements of a program -/

section Separated

variable {semicolon : Token} (kind : semicolon.kind = .semicolon) (tail : List Token)
  (stop : Position) {cursor : Cursor}

include kind

/-- A statement of a program that is read is read with a semicolon behind it, too. -/
theorem closedStatement_separated
    {stmt : Stmt}
    {next : Cursor}
    (reads : (closedStatement cursor).run = .ok (stmt, next)) :
    ∃ next', (closedStatement (cursor.extend (semicolon :: tail) stop)).run = .ok (stmt, next') ∧
      program next' = program (next.extend (semicolon :: tail) stop) := by
  have extension := Run.cut_extension ⟨semicolon, tail, rfl, kind⟩ stop
  have cut := extension.statement false cursor
  rw [run_closedStatement] at reads
  obtain ⟨_, between, first, closes⟩ := Run.andThen_eq_ok.mp reads
  obtain ⟨_, ends, rfl⟩ := Run.map_eq_ok.mp closes
  rw [first] at cut
  rw [run_closedStatement, cut.done rfl, Run.mapCursor_ok, Run.andThen_ok]
  by_cases none : between.rest = []
  · -- The statement ended with the tokens.  Now the semicolon ends it.
    obtain ⟨prev, rest, stop', parens⟩ := between
    obtain rfl : rest = [] := none
    rw [endStatement_of_ended rfl] at ends
    cases ends
    refine ⟨⟨some semicolon, tail, stop, parens⟩, ?_, ?_⟩
    · rw [Cursor.extend, List.nil_append, run_endStatement, if_pos (by exact kind),
        Cursor.run_expect_cons, if_pos kind]
      rfl
    · rw [Cursor.extend, List.nil_append, program_semicolon kind, program_prev none]
  · have same := (extension.endStatement false .endOfInput none).done (by rw [ends]; rfl)
    rw [same, ends]
    exact ⟨_, rfl, rfl⟩

/-- A statement of a program that fails without a brace fails with a semicolon behind it,
too, no further than there. -/
theorem closedStatement_separated_error
    {error : SyntaxError}
    {last : Cursor}
    (plain : ∀ token ∈ cursor.rest, token.kind ≠ .leftBrace)
    (fails : (closedStatement cursor).run = .error (error, last)) :
    ∃ error' prev, (closedStatement (cursor.extend (semicolon :: tail) stop)).run =
      .error (error', ⟨prev, last.rest ++ semicolon :: tail, stop, last.parens⟩) := by
  have extension := Run.cut_extension ⟨semicolon, tail, rfl, kind⟩ stop
  have whole : Run.Cut (semicolon :: tail) stop false cursor (closedStatement cursor).run
      (closedStatement (cursor.extend (semicolon :: tail) stop)).run := by
    rw [run_closedStatement, run_closedStatement]
    refine extension.andThen (extension.statement false cursor) ?_
    intro stmt next reads
    refine extension.map _ (extension.endStatement false .endOfInput fun none => ?_)
    rw [run_closedStatement, reads, Run.andThen_ok, endStatement_of_ended none] at fails
    cases fails
  obtain ⟨_, passes, -⟩ := Run.advances_invariant.closedStatement cursor
  obtain ⟨_, passes', -⟩ :=
    Run.advances_invariant.closedStatement (cursor.extend (semicolon :: tail) stop)
  rw [fails] at whole passes
  obtain ⟨failed, place⟩ := whole.failed rfl plain rfl
  rcases reads : (closedStatement (cursor.extend (semicolon :: tail) stop)).run with
    ⟨error', last'⟩ | ⟨stmt, next⟩
  · rw [reads] at place passes'
    have rest : last'.rest = last.rest ++ semicolon :: tail := place
    have stops : last'.stop = stop := passes'.stop
    have parens : last'.parens = last.parens := passes'.parens.trans passes.parens.symm
    refine ⟨error', last'.prev, ?_⟩
    rw [← rest, ← stops, ← parens]
  · rw [reads] at failed
    cases failed

/-- Among tokens without opening braces, recovering stops behind the first semicolon. -/
theorem drop_statementLength
    {tokens : List Token}
    (plain : ∀ token ∈ tokens, token.kind ≠ .leftBrace) :
    let whole := tokens ++ semicolon :: tail
    let left := tokens.drop (Cursor.statementLength 0 tokens)
    whole.drop (Cursor.statementLength 0 whole) = left ++ semicolon :: tail ∨
      left = [] ∧ whole.drop (Cursor.statementLength 0 whole) = tail := by
  induction tokens with
  | nil => simp [Cursor.statementLength, kind]
  | cons token tokens inductionHypothesis =>
      have others := inductionHypothesis fun other member =>
        plain other (List.mem_cons_of_mem token member)
      have first := plain token List.mem_cons_self
      cases found : token.kind
      case leftBrace => exact absurd found first
      case semicolon => simp [Cursor.statementLength, found]
      all_goals simpa [Cursor.statementLength, found] using others

/-- Behind a place of failure without braces, the same program is read with a semicolon
and more tokens as behind the place of recovery. -/
theorem program_recover
    (prev : Option Token)
    (last : Cursor)
    (plain : ∀ token ∈ last.rest, token.kind ≠ .leftBrace) :
    program (Cursor.recover ⟨prev, last.rest ++ semicolon :: tail, stop, last.parens⟩) =
      program (last.recover.extend (semicolon :: tail) stop) := by
  rw [Cursor.recover, Cursor.recover, Cursor.drop, Cursor.drop, Cursor.extend]
  dsimp only
  rcases drop_statementLength kind tail plain with further | ⟨nothing, behind⟩
  · rw [further, program_prev]
  · rw [nothing, behind, List.nil_append, program_semicolon kind, program_prev]

end Separated

/-! ## Programs -/

/-- The whole has the statements of both parts, and as many errors, of which the last are
those of the second part. -/
structure Result.Joins (first second whole : Result) : Prop where
  program : whole.program = first.program ++ second.program
  errors : ∃ front, whole.errors = front ++ second.errors ∧
    front.length = first.errors.length

namespace Result.Joins

variable {first second whole : Result}

theorem nil (second : Result) : Joins ⟨[], []⟩ second second :=
  ⟨rfl, [], rfl, rfl⟩

theorem stmt (joins : Joins first second whole) (stmt : Stmt) :
    Joins ⟨stmt :: first.program, first.errors⟩ second
      ⟨stmt :: whole.program, whole.errors⟩ :=
  ⟨congrArg (stmt :: ·) joins.program, joins.errors⟩

theorem error (joins : Joins first second whole) (error error' : SyntaxError) :
    Joins ⟨first.program, error :: first.errors⟩ second
      ⟨whole.program, error' :: whole.errors⟩ := by
  obtain ⟨front, equal, length⟩ := joins.errors
  exact ⟨joins.program, error' :: front, congrArg (error' :: ·) equal, congrArg (· + 1) length⟩

end Result.Joins

/-- Round by round, the same statements are read with a semicolon and more tokens. -/
theorem Rounds.joins
    {semicolon : Token}
    (kind : semicolon.kind = .semicolon)
    (tail : List Token)
    (stop : Position)
    {cursor last : Cursor}
    {rounds : List Round}
    (read : Rounds cursor rounds last)
    (closed : cursor.parens = 0)
    (plain : (program cursor).errors = [] ∨ ∀ token ∈ cursor.rest, token.kind ≠ .leftBrace) :
    Result.Joins (program cursor) (program ⟨none, tail, stop, 0⟩)
      (program (cursor.extend (semicolon :: tail) stop)) := by
  induction read with
  | @ended cursor nothing =>
      have parens : cursor.skipSemicolons.parens = 0 := closed
      have same : program (cursor.extend (semicolon :: tail) stop) =
          program ⟨none, tail, stop, 0⟩ := by
        rw [← program_skipSemicolons, skipSemicolons_extend, program_skipSemicolons, Cursor.extend,
          nothing, parens, List.nil_append, program_semicolon kind]
      rw [Parser.program_eq cursor, if_pos nothing, same]
      exact .nil _
  | @step cursor last rounds more others inductionHypothesis =>
      have separated : (cursor.skipSemicolons.extend (semicolon :: tail) stop).rest ≠ [] := by
        simp [Cursor.extend]
      obtain ⟨_, -, passes⟩ := Round.exists_passes more
      have parens : (Round.ofCursor cursor).next.parens = 0 := passes.parens.trans closed
      have within : (Round.ofCursor cursor).next.rest ⊆ cursor.rest := by
        refine List.Subset.trans ?_ cursor.rest_skipSemicolons_suffix.subset
        exact passes.rest ▸ List.subset_append_right _ _
      rw [Parser.program_eq cursor, if_neg more] at plain ⊢
      rw [Parser.program_eq (cursor.extend _ _), skipSemicolons_extend_of_ne_nil _ _ more,
        if_neg separated]
      rcases reads : (closedStatement cursor.skipSemicolons).run with ⟨error, last⟩ | ⟨stmt, next⟩
      · have round : (Round.ofCursor cursor).next = last.recover := by
          simp only [Round.next, Round.ofCursor, reads]
        rw [reads] at plain
        rw [round] at parens within inductionHypothesis
        have plain := plain.resolve_left (List.cons_ne_nil _ _)
        obtain ⟨error', prev, reads'⟩ := closedStatement_separated_error kind tail stop
          (fun token member => plain token (cursor.rest_skipSemicolons_suffix.subset member)) reads
        have accounts := closedStatement_accounts cursor.skipSemicolons
        rw [reads] at accounts
        rw [reads']
        dsimp only
        rw [program_recover kind tail stop prev last fun token member => plain token
          (cursor.rest_skipSemicolons_suffix.subset (accounts.1.subset member))]
        exact .error (inductionHypothesis parens (.inr fun token member =>
          plain token (within member))) error error'
      · have round : (Round.ofCursor cursor).next = next := by
          simp only [Round.next, Round.ofCursor, reads]
        rw [reads] at plain
        rw [round] at parens within inductionHypothesis
        obtain ⟨next', reads', same⟩ := closedStatement_separated kind tail stop reads
        rw [reads']
        dsimp only
        rw [same]
        exact .stmt (inductionHypothesis parens (plain.imp id fun plain token member =>
          plain token (within member))) stmt

end Parser

/-- A token list with a semicolon in it is read like one with more tokens ahead. -/
theorem Cursor.ofTokens_append
    {first : List Token}
    {stop semicolon : Token}
    (noEnd : ∀ token ∈ first, token.kind ≠ .endOfInput)
    (ends : stop.kind = .endOfInput)
    (kind : semicolon.kind = .semicolon)
    (second : List Token) :
    ofTokens (first ++ semicolon :: second) = (ofTokens (first ++ [stop])).extend
      (semicolon :: (ofTokens second).rest) (ofTokens second).stop := by
  have none : first.find? (·.kind = .endOfInput) = none := by simpa using noEnd
  have ahead : (first ++ semicolon :: second).takeWhile (·.kind ≠ .endOfInput) =
      first ++ semicolon :: second.takeWhile (·.kind ≠ .endOfInput) := by
    rw [List.takeWhile_append_of_pos (by simpa using noEnd), List.takeWhile_cons_of_pos]
    simp [kind]
  rw [extend, rest_ofTokens noEnd ends, ofTokens, ahead]
  simp [ofTokens, List.find?_append, none, kind]

/-- A semicolon keeps statements apart.  If those before it have no errors, or open no
brace, the program has their statements and then those behind the semicolon, and as many
errors as both, of which the last are the errors behind the semicolon. -/
theorem statements_are_read_apart
    (first : List Token)
    (stop semicolon : Token)
    (second : List Token)
    (noEnd : ∀ token ∈ first, token.kind ≠ .endOfInput)
    (ends : stop.kind = .endOfInput)
    (separates : semicolon.kind = .semicolon)
    (plain : (Program.ofTokens (first ++ [stop])).errors = [] ∨
      ∀ token ∈ first, token.kind ≠ .leftBrace) :
    (Program.ofTokens (first ++ semicolon :: second)).program =
      (Program.ofTokens (first ++ [stop])).program ++ (Program.ofTokens second).program ∧
    ∃ front, (Program.ofTokens (first ++ semicolon :: second)).errors =
        front ++ (Program.ofTokens second).errors ∧
      front.length = (Program.ofTokens (first ++ [stop])).errors.length := by
  obtain ⟨rounds, last, read⟩ := Parser.exists_rounds (.ofTokens (first ++ [stop]))
  have joins := read.joins separates (Cursor.ofTokens second).rest (Cursor.ofTokens second).stop
    rfl (by rwa [Cursor.rest_ofTokens noEnd ends])
  rw [← Cursor.ofTokens_append noEnd ends separates] at joins
  exact ⟨joins.program, joins.errors⟩

/-- Nothing is left of an argument list and a parameter list that are open when the first
statement fails. -/
theorem statements_are_read_apart_unclosed :
    let first : List Token := [⟨.identifier, "f", ⟨1, 1, 0⟩⟩, ⟨.leftParen, "(", ⟨1, 2, 1⟩⟩,
      ⟨.fnWord, "fn", ⟨1, 3, 2⟩⟩, ⟨.leftParen, "(", ⟨1, 5, 4⟩⟩]
    let second : List Token := [⟨.identifier, "x", ⟨1, 7, 6⟩⟩, .endAt ⟨1, 8, 7⟩]
    let whole := Program.ofTokens (first ++ ⟨.semicolon, ";", ⟨1, 6, 5⟩⟩ :: second)
    whole.program = (Program.ofTokens second).program ∧ whole.program.length = 1 ∧
      whole.errors.length = 1 := by
  intro first second whole
  obtain ⟨program, front, errors, length⟩ := statements_are_read_apart first (.endAt ⟨1, 6, 5⟩)
    ⟨.semicolon, ";", ⟨1, 6, 5⟩⟩ second (by decide) rfl rfl (.inr (by decide))
  have none : (Program.ofTokens (first ++ [.endAt ⟨1, 6, 5⟩])).program = [] := by
    decide +kernel
  have failed : (Program.ofTokens (first ++ [.endAt ⟨1, 6, 5⟩])).errors.length = 1 := by
    decide +kernel
  have valid : (Program.ofTokens second).program.length = 1 ∧
      (Program.ofTokens second).errors = [] := by
    decide +kernel
  rw [none, List.nil_append] at program
  rw [valid.2, List.append_nil] at errors
  exact ⟨program, program ▸ valid.1, errors ▸ length.trans failed⟩

end Siren
