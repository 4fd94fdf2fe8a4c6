import Siren.Proofs.ParserExtension

/-!
# Completing what ended too early

A run of the parser that fails because no token is left can be made to succeed
by more tokens.  They are spelled by pieces, which leave positions open.  What
is missing is added from the inside out: the construct that was being read is
completed first, and those around it are closed behind it.
-/

namespace Siren

/-! ## Pieces -/

/-- A token to add, without its position. -/
inductive Piece where
  | assign
  | leftParen
  | rightParen
  | leftBrace
  | rightBrace
  | zero
  /-- A name of one letter repeated, one more time than the number says. -/
  | name (length : Nat)

namespace Piece

/-- The kind of a piece. -/
def kind : Piece → Kind
  | .assign => .assign
  | .leftParen => .leftParen
  | .rightParen => .rightParen
  | .leftBrace => .leftBrace
  | .rightBrace => .rightBrace
  | .zero => .integer
  | .name _ => .identifier

/-- The lexeme of a piece. -/
def lexeme : Piece → Text
  | .zero => [48]
  | .name length => List.replicate (length + 1) 97
  | piece => piece.kind.name

end Piece

/-- The tokens have the kinds and lexemes of the pieces. -/
inductive Spells : List Piece → List Token → Prop where
  | nil : Spells [] []
  | cons {piece : Piece} {pieces : List Piece} {token : Token} {tokens : List Token}
      (kind : token.kind = piece.kind)
      (lexeme : token.lexeme = piece.lexeme)
      (rest : Spells pieces tokens) :
      Spells (piece :: pieces) (token :: tokens)

/-- The pieces start with one that closes constructs, if they are not empty. -/
def Closers (pieces : List Piece) : Prop :=
  ∀ piece ∈ pieces.head?, piece.kind = .rightParen ∨ piece.kind = .leftBrace ∨
    piece.kind = .rightBrace

theorem closers_braces : Closers [.leftBrace, .rightBrace] := by
  simp [Closers, Piece.kind]

theorem closers_rightParen : Closers [.rightParen] := by
  simp [Closers, Piece.kind]

theorem closers_rightBrace : Closers [.rightBrace] := by
  simp [Closers, Piece.kind]

theorem closers_nil : Closers [] := by
  simp [Closers]

namespace Spells

variable {pieces pieces' : List Piece} {tokens : List Token}

/-- Tokens that spell pieces in a row are parts that spell them. -/
theorem split (spells : Spells (pieces ++ pieces') tokens) :
    ∃ first second, tokens = first ++ second ∧ Spells pieces first ∧
      Spells pieces' second := by
  induction pieces generalizing tokens with
  | nil => exact ⟨[], tokens, rfl, .nil, spells⟩
  | cons piece pieces inductionHypothesis =>
      cases spells with
      | cons kind lexeme rest =>
          obtain ⟨first, second, rfl, spells, spells'⟩ := inductionHypothesis rest
          exact ⟨_ :: first, second, rfl, .cons kind lexeme spells, spells'⟩

theorem closing
    {more : List Token}
    (spells : Spells pieces tokens)
    (closers : Closers pieces)
    (closing : Closing more) :
    Closing (tokens ++ more) := by
  cases spells with
  | nil => exact closing
  | cons kind _ _ =>
      rintro token heads
      obtain rfl := Option.some.inj heads
      rw [kind]
      exact closers _ rfl

end Spells

/-! ## What pieces complete -/

/-- From every place with the pieces ahead, and then closing tokens, reading
succeeds and ends before these. -/
def Takes {α : Type} (pieces : List Piece) (read : Cursor → Run α) : Prop :=
  ∀ cursor tokens more, cursor.rest = tokens ++ more → Spells pieces tokens → Closing more →
    ∃ value next, read cursor = .ok (value, next) ∧ next.rest = more

/-- Some pieces behind the tokens ahead, and then closing tokens, make reading
succeed and end before these. -/
def Completes {α : Type} (cursor : Cursor) (read : Cursor → Run α) : Prop :=
  ∃ pieces, ∀ tokens more stop, Spells pieces tokens → Closing more →
    ∃ value next, read (cursor.extend (tokens ++ more) stop) = .ok (value, next) ∧
      next.rest = more

/-- If reading fails where no token is left, more tokens make it succeed. -/
def Completable {α : Type} (cursor : Cursor) (read : Cursor → Run α) : Prop :=
  ∀ error stop, read cursor = .error (error, stop) → stop.rest = [] → Completes cursor read

variable {α β : Type}

namespace Takes

variable {pieces pieces' : List Piece} {read : Cursor → Run α}

theorem map (takes : Takes pieces read) (change : α → β) :
    Takes pieces fun cursor => (read cursor).map change := by
  intro cursor tokens more ahead spells closing
  obtain ⟨value, next, reads, rest⟩ := takes cursor tokens more ahead spells closing
  exact ⟨change value, next, by simp only [reads, Run.map_ok], rest⟩

/-- Pieces in a row are taken in a row, if the later ones close what the earlier
ones start. -/
theorem andThen
    {second : α → Cursor → Run β}
    (takes : Takes pieces read)
    (takes' : ∀ value, Takes pieces' (second value))
    (closers : Closers pieces') :
    Takes (pieces ++ pieces') fun cursor => (read cursor).andThen second := by
  intro cursor tokens more ahead spells closing
  obtain ⟨first, behind, rfl, spells, spells'⟩ := spells.split
  rw [List.append_assoc] at ahead
  obtain ⟨value, next, reads, rest⟩ :=
    takes cursor first (behind ++ more) ahead spells (spells'.closing closers closing)
  obtain ⟨value', next', reads', rest'⟩ := takes' value next behind more rest spells' closing
  exact ⟨value', next', by simp only [reads, Run.andThen_ok, reads'], rest'⟩

/-- A token is taken whatever follows it. -/
theorem expect
    {second : Token → Cursor → Run β}
    (piece : Piece)
    (takes : ∀ token, token.kind = piece.kind → token.lexeme = piece.lexeme →
      Takes pieces (second token)) :
    Takes (piece :: pieces) fun cursor => (cursor.expect piece.kind).run.andThen second := by
  rintro ⟨prev, rest, stop, parens⟩ tokens more ahead spells closing
  cases spells with
  | @cons _ _ token tokens kind lexeme spells =>
      obtain rfl : rest = token :: (tokens ++ more) := ahead
      obtain ⟨value, next, reads, rest⟩ :=
        takes token kind lexeme ⟨some token, tokens ++ more, stop, parens⟩ tokens more rfl spells
          closing
      refine ⟨value, next, ?_, rest⟩
      simp only [Cursor.run_expect_cons, if_pos kind, Run.andThen_ok, reads]

end Takes

theorem Cursor.extend_nil_stop (cursor : Cursor) : cursor.extend [] cursor.stop = cursor := by
  simp [extend]

theorem Cursor.rest_leave (cursor : Cursor) : cursor.leave.rest = cursor.rest := rfl

theorem Cursor.rest_withParens (parens : Nat) (cursor : Cursor) :
    (cursor.withParens parens).rest = cursor.rest := rfl

namespace Completable

variable {cursor : Cursor} {pieces : List Piece} {read : Cursor → Run α}

/-- What succeeds needs no completion. -/
theorem of_ok
    {result : α × Cursor}
    (done : read cursor = .ok result) :
    Completable cursor read := by
  intro error stop failed
  rw [done] at failed
  cases failed

/-- What fails before a token cannot be completed. -/
theorem of_complain
    {complaint : Complaint}
    (complains : read cursor = .complain cursor complaint)
    (nonempty : cursor.rest ≠ []) :
    Completable cursor read := by
  intro error stop failed ended
  rw [complains] at failed
  cases failed
  exact absurd ended nonempty

/-- Pieces that are taken complete what has no token ahead. -/
theorem of_takes
    (takes : Takes pieces read)
    (none : cursor.rest = []) :
    Completable cursor read := by
  intro _ _ _ _
  refine ⟨pieces, fun tokens more stop => takes _ tokens more ?_⟩
  rw [Cursor.extend, none, List.nil_append]

/-- What reads on in another way with all tokens added is completed there. -/
theorem of_eq
    {next : Cursor}
    {read' : Cursor → Run α}
    (completable : Completable next read')
    (same : ∀ more stop, read (cursor.extend more stop) = read' (next.extend more stop))
    (stops : next.stop = cursor.stop) :
    Completable cursor read := by
  intro error stop failed ended
  have here := same [] cursor.stop
  rw [cursor.extend_nil_stop, ← stops, next.extend_nil_stop] at here
  obtain ⟨pieces, complete⟩ := completable error stop (here ▸ failed) ended
  refine ⟨pieces, fun tokens more stop spells closing => ?_⟩
  rw [same]
  exact complete tokens more stop spells closing

theorem map (completable : Completable cursor read) (change : α → β) :
    Completable cursor fun cursor => (read cursor).map change := by
  intro error stop failed ended
  cases reads : read cursor with
  | ok result => simp [reads, Run.map] at failed
  | error failure =>
      simp only [reads, Run.map_error, Except.error.injEq] at failed
      obtain ⟨pieces, complete⟩ := completable error stop (failed ▸ reads) ended
      refine ⟨pieces, fun tokens more stop spells closing => ?_⟩
      obtain ⟨value, next, reads, rest⟩ := complete tokens more stop spells closing
      exact ⟨change value, next, by simp only [reads, Run.map_ok], rest⟩

theorem mapCursor
    {change : Cursor → Cursor}
    (completable : Completable cursor read)
    (keeps : ∀ cursor, (change cursor).rest = cursor.rest) :
    Completable cursor fun cursor => (read cursor).mapCursor change := by
  intro error stop failed ended
  cases reads : read cursor with
  | ok result => simp [reads, Run.mapCursor] at failed
  | error failure =>
      obtain ⟨error', stop'⟩ := failure
      simp only [reads, Run.mapCursor_error, Except.error.injEq, Prod.mk.injEq] at failed
      obtain ⟨rfl, rfl⟩ := failed
      obtain ⟨pieces, complete⟩ := completable error' stop' reads ((keeps stop').symm.trans ended)
      refine ⟨pieces, fun tokens more stop spells closing => ?_⟩
      obtain ⟨value, next, reads, rest⟩ := complete tokens more stop spells closing
      exact ⟨value, change next, by simp only [reads, Run.mapCursor_ok],
        (keeps next).trans rest⟩

/-- A sequence is completed in the part that fails.  Where the first part is
completed, or has used up all tokens, the second part is closed by pieces of its
own. -/
theorem andThen
    {second : α → Cursor → Run β}
    (completable : Completable cursor read)
    (carries : ∀ more stop, Run.Carries cursor more stop (read cursor)
      (read (cursor.extend more stop)))
    (takes : ∀ value, Takes pieces (second value))
    (closers : Closers pieces)
    (further : ∀ value next, read cursor = .ok (value, next) → next.rest ≠ [] →
      Completable next (second value)) :
    Completable cursor fun cursor => (read cursor).andThen second := by
  intro error stop failed ended
  cases reads : read cursor with
  | error failure =>
      simp only [reads, Run.andThen_error, Except.error.injEq] at failed
      obtain ⟨pieces', complete⟩ := completable error stop (failed ▸ reads) ended
      refine ⟨pieces' ++ pieces, fun tokens more stop spells closing => ?_⟩
      obtain ⟨first, behind, rfl, spells, spells'⟩ := spells.split
      obtain ⟨value, next, reads, rest⟩ :=
        complete first (behind ++ more) stop spells (spells'.closing closers closing)
      obtain ⟨value', next', reads', rest'⟩ := takes value next behind more rest spells' closing
      refine ⟨value', next', ?_, rest'⟩
      simp only [List.append_assoc, reads, Run.andThen_ok, reads']
  | ok result =>
      obtain ⟨value, next⟩ := result
      simp only [reads, Run.andThen_ok] at failed
      by_cases none : next.rest = []
      · refine ⟨pieces, fun tokens more stop spells closing => ?_⟩
        have carried := (carries (tokens ++ more) stop).same
          (.inr ⟨spells.closing closers closing, by rw [reads]; rfl⟩)
        rw [reads, Run.mapCursor_ok] at carried
        obtain ⟨value', next', reads', rest'⟩ := takes value (next.extend (tokens ++ more) stop)
          tokens more (by rw [Cursor.extend, none, List.nil_append]) spells closing
        exact ⟨value', next', by simp only [carried, Run.andThen_ok, reads'], rest'⟩
      · obtain ⟨pieces', complete⟩ := further value next reads none error stop failed ended
        refine ⟨pieces', fun tokens more stop spells closing => ?_⟩
        have carried := (carries (tokens ++ more) stop).same (.inl (by rw [reads]; exact none))
        rw [reads, Run.mapCursor_ok] at carried
        obtain ⟨value', next', reads', rest'⟩ := complete tokens more stop spells closing
        exact ⟨value', next', by simp only [carried, Run.andThen_ok, reads'], rest'⟩

/-- Where a token is ahead, a sequence that starts with one is completed behind
it. -/
theorem expect_of_ne_nil
    {second : Token → Cursor → Run β}
    {wanted : Kind}
    (nonempty : cursor.rest ≠ [])
    (further : ∀ token next, (cursor.expect wanted).run = .ok (token, next) →
      Completable next (second token)) :
    Completable cursor fun cursor => (cursor.expect wanted).run.andThen second := by
  obtain ⟨prev, rest, stop, parens⟩ := cursor
  cases rest with
  | nil => exact absurd rfl nonempty
  | cons token rest =>
      by_cases kind : token.kind = wanted
      · refine .of_eq (further token ⟨some token, rest, stop, parens⟩ ?_) ?_ rfl
        · rw [Cursor.run_expect_cons, if_pos kind]
        · intro more stop'
          simp only [Cursor.extend_cons, Cursor.run_expect_cons, if_pos kind, Run.andThen_ok]
          rfl
      · have complains : (Cursor.expect ⟨prev, token :: rest, stop, parens⟩ wanted).run.andThen
            second = .complain ⟨prev, token :: rest, stop, parens⟩ (.missing wanted token) := by
          rw [Cursor.run_expect_cons, if_neg kind]
          rfl
        exact .of_complain complains nonempty

/-- A token that is missing is added with what has to follow it. -/
theorem expect
    {second : Token → Cursor → Run β}
    (piece : Piece)
    (takes : ∀ token, token.kind = piece.kind → token.lexeme = piece.lexeme →
      Takes pieces (second token))
    (further : ∀ token next, (cursor.expect piece.kind).run = .ok (token, next) →
      Completable next (second token)) :
    Completable cursor fun cursor => (cursor.expect piece.kind).run.andThen second := by
  by_cases none : cursor.rest = []
  · exact .of_takes (.expect piece takes) none
  · exact expect_of_ne_nil none further

end Completable

/-- Where a token is ahead, one of a kind is there or never will be. -/
theorem Cursor.expect_completable
    {cursor : Cursor}
    (nonempty : cursor.rest ≠ [])
    (wanted : Kind) :
    Completable cursor fun cursor => (cursor.expect wanted).run := by
  obtain ⟨prev, rest, stop, parens⟩ := cursor
  cases rest with
  | nil => exact absurd rfl nonempty
  | cons token rest =>
      by_cases kind : token.kind = wanted
      · exact .of_ok (by rw [run_expect_cons, if_pos kind])
      · exact .of_complain (by rw [run_expect_cons, if_neg kind]) nonempty

namespace Parser

/-! ## Pieces that constructs take -/

theorem takes_continuations (level : Level) (left : Expr) :
    Takes [] fun cursor => (continuations level left cursor).run := by
  intro cursor tokens more ahead spells closing
  cases spells with
  | nil =>
      obtain rfl : cursor.rest = more := ahead
      exact ⟨left, cursor, continuations_of_ending level left closing.ending, rfl⟩

theorem takes_elseArm : Takes [] fun cursor => (elseArm cursor).run := by
  intro cursor tokens more ahead spells closing
  cases spells with
  | nil =>
      obtain rfl : cursor.rest = more := ahead
      exact ⟨none, cursor, elseArm_of_ending closing.ending, rfl⟩

/-- A token is taken. -/
theorem takes_expect (piece : Piece) :
    Takes [piece] fun cursor => (cursor.expect piece.kind).run := by
  rintro ⟨prev, rest, stop, parens⟩ tokens more ahead spells closing
  cases spells with
  | @cons _ _ token _ kind _ spells =>
      cases spells with
      | nil =>
          obtain rfl : rest = token :: more := ahead
          refine ⟨token, ⟨some token, more, stop, parens⟩, ?_, rfl⟩
          simp only [Cursor.run_expect_cons, if_pos kind]

/-- A closing parenthesis is taken where more could stand before it. -/
theorem takes_rightParen
    {read : Cursor → Run α}
    (value : α)
    (closes : ∀ cursor : Cursor, cursor.kind = .rightParen →
      read cursor = (cursor.expect .rightParen).run.map fun _ => value) :
    Takes [.rightParen] read := by
  intro cursor tokens more ahead spells closing
  have kind : cursor.kind = .rightParen := by
    cases spells with
    | cons kind _ _ =>
        rw [Cursor.kind, Cursor.current, ahead]
        exact kind
  rw [closes cursor kind]
  exact (takes_expect .rightParen).map _ cursor tokens more ahead spells closing

theorem takes_moreParams (seen : List Text) :
    Takes [.rightParen] fun cursor => (moreParams seen cursor).run :=
  takes_rightParen [] fun _ kind => by rw [run_moreParams, if_pos kind]

theorem takes_params : Takes [.rightParen] fun cursor => (params cursor).run :=
  takes_rightParen [] fun _ kind => by rw [run_params, if_pos kind]

theorem takes_moreArgs : Takes [.rightParen] fun cursor => (moreArgs cursor).run :=
  takes_rightParen [] fun _ kind => by rw [run_moreArgs, if_pos kind]

theorem takes_args : Takes [.rightParen] fun cursor => (args cursor).run :=
  takes_rightParen [] fun _ kind => by rw [run_args, if_pos kind]

/-- A name that was not seen is taken as a parameter. -/
theorem takes_param
    {seen : List Text}
    {length : Nat}
    (fresh : (Piece.name length).lexeme ∉ seen) :
    Takes [.name length, .rightParen] fun cursor => (param seen cursor).run := by
  intro cursor tokens more ahead spells closing
  have unseen : cursor.current.lexeme ∉ seen := by
    cases spells with
    | cons _ lexeme _ =>
        rw [Cursor.current, ahead]
        exact lexeme ▸ fresh
  have takes := Takes.expect (.name length) fun token _ _ =>
    (takes_moreParams (token.lexeme :: seen)).map (token.lexeme :: ·)
  simp only [run_param, if_neg unseen]
  exact takes cursor tokens more ahead spells closing

/-- There is always a name that was not seen. -/
theorem exists_fresh_name (seen : List Text) : ∃ length, (Piece.name length).lexeme ∉ seen := by
  have bounded : ∃ bound, ∀ text ∈ seen, text.length ≤ bound := by
    induction seen with
    | nil => exact ⟨0, nofun⟩
    | cons first others inductionHypothesis =>
        obtain ⟨bound, bounds⟩ := inductionHypothesis
        refine ⟨first.length + bound, fun text member => ?_⟩
        rcases List.mem_cons.mp member with rfl | later
        · exact Nat.le_add_right _ _
        · exact Nat.le_trans (bounds text later) (Nat.le_add_left _ _)
  obtain ⟨bound, bounds⟩ := bounded
  refine ⟨bound, fun member => ?_⟩
  have short := bounds _ member
  simp only [Piece.lexeme, List.length_replicate] at short
  omega

theorem takes_operand : Takes [.zero] fun cursor => (operand cursor).run := by
  rintro ⟨prev, rest, stop, parens⟩ tokens more ahead spells closing
  cases spells with
  | @cons _ _ token _ kind lexeme spells =>
      cases spells with
      | nil =>
          obtain rfl : rest = token :: more := ahead
          have kind : token.kind = .integer := kind
          have value : token.lexeme.toInt64? = some 0 := by
            rw [lexeme]
            decide
          refine ⟨.int token.pos 0, ⟨some token, more, stop, parens⟩, ?_, rfl⟩
          simp only [run_operand_cons, kind, value]

theorem takes_expr (level : Level) : Takes [.zero] fun cursor => (expr level cursor).run := by
  simp only [run_expr]
  exact takes_operand.andThen (takes_continuations level) closers_nil

theorem takes_statement : Takes [.zero] fun cursor => (statement cursor).run := by
  rintro ⟨prev, rest, stop, parens⟩ tokens more ahead spells closing
  have reads := (takes_expr .lowest).map Stmt.expr ⟨prev, rest, stop, parens⟩ tokens more ahead
    spells closing
  cases spells with
  | @cons _ _ token _ kind _ _ =>
      obtain rfl : rest = token :: _ := ahead
      have kind : token.kind = .integer := kind
      simp only [run_statement_cons, kind]
      exact reads

/-- A closing brace is taken behind every statement of a block. -/
theorem takes_statements : Takes [.rightBrace] fun cursor => (statements cursor).run := by
  intro cursor tokens more ahead spells closing
  have kind : cursor.kind = .rightBrace := by
    cases spells with
    | cons kind _ _ =>
        rw [Cursor.kind, Cursor.current, ahead]
        exact kind
  have skipped : cursor.skipSemicolons = cursor :=
    Cursor.skipSemicolons_of_kind_ne (by simp [kind])
  show ∃ value next, (statements cursor).run = .ok (value, next) ∧ next.rest = more
  rw [run_statements, skipped, if_pos (by simp [kind])]
  exact (takes_expect .rightBrace).map _ cursor tokens more ahead spells closing

theorem takes_inside :
    Takes [.rightBrace] fun cursor =>
      (statements (cursor.withParens 0)).run.mapCursor (Cursor.withParens · cursor.parens) := by
  intro cursor tokens more ahead spells closing
  obtain ⟨value, next, reads, rest⟩ :=
    takes_statements (cursor.withParens 0) tokens more ahead spells closing
  exact ⟨value, next.withParens cursor.parens, by simp only [reads, Run.mapCursor_ok], rest⟩

theorem takes_block : Takes [.leftBrace, .rightBrace] fun cursor => (block cursor).run := by
  simp only [run_block]
  exact .expect .leftBrace fun _ _ _ => takes_inside

/-- Behind a statement of a block a closing brace is taken. -/
theorem takes_ending (first : Stmt) :
    Takes [.rightBrace] fun cursor =>
      (endStatement .rightBrace cursor).run.andThen fun _ next =>
        (statements next).run.map (first :: ·) := by
  intro cursor tokens more ahead spells closing
  have kind : cursor.kind = .rightBrace := by
    cases spells with
    | cons kind _ _ =>
        rw [Cursor.kind, Cursor.current, ahead]
        exact kind
  have ends : (endStatement .rightBrace cursor).run = .ok ((), cursor) := by
    rw [run_endStatement, if_neg (by simp [kind]), if_pos (by simp [kind])]
  simp only [ends, Run.andThen_ok]
  exact takes_statements.map (first :: ·) cursor tokens more ahead spells closing

/-- Where a token is ahead, a statement has ended or never will. -/
theorem endStatement_completable
    {cursor : Cursor}
    (nonempty : cursor.rest ≠ []) :
    Completable cursor fun cursor => (endStatement .rightBrace cursor).run := by
  have reads := run_endStatement .rightBrace cursor
  split at reads
  · rename_i semicolon
    refine .of_eq ((cursor.expect_completable nonempty .semicolon).map fun _ => ()) ?_ rfl
    intro more stop
    rw [run_endStatement, Cursor.kind_extend nonempty, if_pos semicolon]
  · split at reads
    · exact .of_ok reads
    · split at reads
      · exact .of_complain reads nonempty
      · exact .of_complain reads nonempty

/-! ## Parameters -/

mutual

theorem param_completable (seen : List Text) (cursor : Cursor) :
    Completable cursor fun cursor => (param seen cursor).run := by
  by_cases none : cursor.rest = []
  · obtain ⟨length, fresh⟩ := exists_fresh_name seen
    exact .of_takes (takes_param fresh) none
  · by_cases listed : cursor.current.lexeme ∈ seen
    · exact .of_complain ((run_param seen cursor).trans (if_pos listed)) none
    · have named : Completable cursor fun cursor =>
          (cursor.expect .identifier).run.andThen fun token next =>
            (moreParams (token.lexeme :: seen) next).run.map (token.lexeme :: ·) := by
        refine .expect_of_ne_nil none ?_
        intro token next reads
        have shorter := Parsed.left_of_run_eq_ok reads
        exact (moreParams_completable (token.lexeme :: seen) next).map _
      refine named.of_eq ?_ rfl
      intro more stop
      rw [run_param, Cursor.current_extend none, if_neg listed]
termination_by cursor.left

theorem moreParams_completable (seen : List Text) (cursor : Cursor) :
    Completable cursor fun cursor => (moreParams seen cursor).run := by
  by_cases none : cursor.rest = []
  · exact .of_takes (takes_moreParams seen) none
  · by_cases closes : cursor.kind = .rightParen
    · refine .of_eq ((cursor.expect_completable none .rightParen).map fun _ => []) ?_ rfl
      intro more stop
      rw [run_moreParams, Cursor.kind_extend none, if_pos closes]
    · have separated : Completable cursor fun cursor =>
          (cursor.expect .comma).run.andThen fun _ next => (param seen next).run := by
        refine .expect_of_ne_nil none ?_
        intro comma next reads
        have shorter := Parsed.left_of_run_eq_ok reads
        exact param_completable seen next
      refine separated.of_eq ?_ rfl
      intro more stop
      rw [run_moreParams, Cursor.kind_extend none, if_neg closes]
termination_by cursor.left

end

theorem params_completable (cursor : Cursor) :
    Completable cursor fun cursor => (params cursor).run := by
  by_cases none : cursor.rest = []
  · exact .of_takes takes_params none
  · by_cases closes : cursor.kind = .rightParen
    · refine .of_eq ((cursor.expect_completable none .rightParen).map fun _ => []) ?_ rfl
      intro more stop
      rw [run_params, Cursor.kind_extend none, if_pos closes]
    · refine (param_completable [] cursor).of_eq ?_ rfl
      intro more stop
      rw [run_params, Cursor.kind_extend none, if_neg closes]

/-! ## Expressions, blocks and statements -/

mutual

theorem expr_completable (level : Level) (cursor : Cursor) :
    Completable cursor fun cursor => (expr level cursor).run := by
  simp only [run_expr]
  refine (operand_completable cursor).andThen (operand_carries · · cursor)
    (takes_continuations level) closers_nil ?_
  intro left next reads _
  have shorter := Parsed.left_of_run_eq_ok reads
  exact continuations_completable level left next
termination_by 6 * cursor.left + 3

theorem continuations_completable (level : Level) (left : Expr) (cursor : Cursor) :
    Completable cursor fun cursor => (continuations level left cursor).run := by
  match cursor with
  | ⟨prev, [], stop, parens⟩ =>
      exact .of_ok (run_continuations_nil level left prev stop parens)
  | ⟨prev, token :: rest, stop, parens⟩ =>
      have shorter := Cursor.left_next prev token rest stop parens
      have reads (more : List Token) (stop' : Position) :=
        run_continuations_cons level left prev token (rest ++ more) stop' parens
      have here := run_continuations_cons level left prev token rest stop parens
      cases found : Continuation.ofKind? token.kind with
      | none =>
          rw [found] at here
          exact .of_ok here
      | some continuation =>
          simp only [found] at here reads
          by_cases ends : (continuation.level ≤ level ||
              Cursor.endsLine ⟨prev, token :: rest, stop, parens⟩) = true
          · rw [if_pos ends] at here
            exact .of_ok here
          · have goesOn (more : List Token) (stop' : Position) :=
              (reads more stop').trans (if_neg ends)
            cases continuation with
            | arguments =>
                have entered : Cursor.left ⟨some token, rest, stop, parens + 1⟩ + 1 ≤
                    Cursor.left ⟨prev, token :: rest, stop, parens⟩ := shorter
                have inside := (args_completable ⟨some token, rest, stop, parens + 1⟩).mapCursor
                  Cursor.rest_leave
                have called := inside.andThen
                  (fun more stop' =>
                    (args_carries more stop' ⟨some token, rest, stop, parens + 1⟩).leave)
                  (fun args => takes_continuations level (.call left args)) closers_nil ?_
                · exact called.of_eq goesOn rfl
                · intro args after leaves _
                  obtain ⟨last, reads, rfl⟩ := Run.mapCursor_eq_ok.mp leaves
                  have further := Parsed.left_of_run_eq_ok reads
                  rw [← last.left_leave] at further
                  exact continuations_completable level (.call left args) last.leave
            | operator op level' =>
                have operand := expr_completable level' ⟨some token, rest, stop, parens⟩
                have joined := operand.andThen
                  (expr_carries · · level' ⟨some token, rest, stop, parens⟩)
                  (fun right => takes_continuations level (.binary left op right)) closers_nil ?_
                · exact joined.of_eq goesOn rfl
                · intro right after reads _
                  have further := Parsed.left_of_run_eq_ok reads
                  exact continuations_completable level (.binary left op right) after
termination_by 6 * cursor.left

theorem operand_completable (cursor : Cursor) :
    Completable cursor fun cursor => (operand cursor).run := by
  match cursor with
  | ⟨prev, [], stop, parens⟩ => exact .of_takes takes_operand rfl
  | ⟨prev, token :: rest, stop, parens⟩ =>
      have shorter := Cursor.left_next prev token rest stop parens
      have reads (more : List Token) (stop' : Position) :=
        run_operand_cons prev token (rest ++ more) stop' parens
      have here := run_operand_cons prev token rest stop parens
      have nonempty : (⟨prev, token :: rest, stop, parens⟩ : Cursor).rest ≠ [] :=
        List.cons_ne_nil _ _
      cases kind : token.kind <;> rw [kind] at here <;> simp only [kind] at reads
      case integer =>
        cases value : token.lexeme.toInt64? with
        | none =>
            rw [value] at here
            exact .of_complain here nonempty
        | some number =>
            rw [value] at here
            exact .of_ok here
      case trueWord => exact .of_ok here
      case falseWord => exact .of_ok here
      case identifier => exact .of_ok here
      case minus =>
        exact ((expr_completable .sign ⟨some token, rest, stop, parens⟩).map _).of_eq reads rfl
      case bang =>
        exact ((expr_completable .sign ⟨some token, rest, stop, parens⟩).map _).of_eq reads rfl
      case leftParen =>
        have entered : Cursor.left ⟨some token, rest, stop, parens + 1⟩ + 1 ≤
            Cursor.left ⟨prev, token :: rest, stop, parens⟩ := shorter
        have inside := expr_completable .lowest ⟨some token, rest, stop, parens + 1⟩
        have closed := inside.andThen
          (expr_carries · · .lowest ⟨some token, rest, stop, parens + 1⟩)
          (fun value => (takes_expect .rightParen).map fun _ => value) closers_rightParen
          fun value after _ nonempty => (after.expect_completable nonempty .rightParen).map _
        exact (closed.mapCursor Cursor.rest_leave).of_eq reads rfl
      case fnWord =>
        exact (function_completable token.pos ⟨some token, rest, stop, parens⟩).of_eq reads rfl
      case ifWord =>
        exact (branch_completable token.pos ⟨some token, rest, stop, parens⟩).of_eq reads rfl
      all_goals exact .of_complain here nonempty
termination_by 6 * cursor.left + 2

theorem function_completable (pos : Position) (cursor : Cursor) :
    Completable cursor fun cursor => (function pos cursor).run := by
  simp only [run_function]
  have takes (params : List Text) := takes_block.map fun body => Expr.function pos params body
  refine .expect .leftParen (fun _ _ _ => takes_params.andThen takes closers_braces) ?_
  intro opening inside opens
  refine (params_completable inside).andThen (params_carries · · inside) takes closers_braces ?_
  intro params behind listed _
  have shorter := Parsed.left_of_run_eq_ok opens
  have further := Parsed.left_of_run_eq_ok listed
  exact (block_completable behind).map _
termination_by 6 * cursor.left

theorem branch_completable (pos : Position) (cursor : Cursor) :
    Completable cursor fun cursor => (branch pos cursor).run := by
  simp only [run_branch]
  have takes (condition : Expr) (thenArm : Block) := takes_elseArm.map fun elseArm =>
    Expr.branch pos condition thenArm elseArm
  refine (expr_completable .lowest cursor).andThen (expr_carries · · .lowest cursor)
    (fun condition => takes_block.andThen (takes condition) closers_nil) closers_braces ?_
  intro condition between tests _
  have shorter := Parsed.left_of_run_eq_ok tests
  refine (block_completable between).andThen (block_carries · · between) (takes condition)
    closers_nil ?_
  intro thenArm behind reads _
  have further := Parsed.left_of_run_eq_ok reads
  exact (elseArm_completable behind).map _
termination_by 6 * cursor.left + 4

theorem elseArm_completable (cursor : Cursor) :
    Completable cursor fun cursor => (elseArm cursor).run := by
  match cursor with
  | ⟨prev, [], stop, parens⟩ => exact .of_ok (run_elseArm_nil prev stop parens)
  | ⟨prev, token :: rest, stop, parens⟩ =>
      by_cases kind : token.kind = .elseWord
      · match equal : rest with
        | [] =>
            intro _ _ _ _
            refine ⟨[.leftBrace, .rightBrace], fun tokens more stop' spells closing => ?_⟩
            obtain ⟨value, next, reads, rest⟩ := takes_block.map some
              ⟨some token, tokens ++ more, stop', parens⟩ tokens more rfl spells closing
            refine ⟨value, next, ?_, rest⟩
            cases spells with
            | @cons _ _ first _ opens _ _ =>
                have opens : first.kind ≠ .ifWord := by
                  rw [opens]
                  decide
                simp only [Cursor.extend_cons, run_elseArm_cons, if_pos kind, List.nil_append,
                  List.cons_append, if_neg opens]
                exact reads
        | token' :: rest' =>
            have further : Cursor.left ⟨some token, token' :: rest', stop, parens⟩ + 1 ≤
                Cursor.left ⟨prev, token :: rest, stop, parens⟩ := by
              simp [Cursor.left, equal]
            have beyond := Cursor.left_next (some token) token' rest' stop parens
            have reads (more : List Token) (stop' : Position) :=
              (run_elseArm_cons prev token (token' :: (rest' ++ more)) stop' parens).trans
                (if_pos kind)
            dsimp only at reads
            by_cases chained : token'.kind = .ifWord
            · have nested := branch_completable token'.pos ⟨some token', rest', stop, parens⟩
              exact (nested.map _).of_eq (fun more stop' => (reads more stop').trans
                (if_pos chained)) rfl
            · have body := block_completable ⟨some token, token' :: rest', stop, parens⟩
              exact (body.map some).of_eq (fun more stop' => (reads more stop').trans
                (if_neg chained)) rfl
      · exact .of_ok ((run_elseArm_cons prev token rest stop parens).trans (if_neg kind))
termination_by 6 * cursor.left

theorem args_completable (cursor : Cursor) :
    Completable cursor fun cursor => (args cursor).run := by
  by_cases none : cursor.rest = []
  · exact .of_takes takes_args none
  · by_cases closes : cursor.kind = .rightParen
    · refine .of_eq ((cursor.expect_completable none .rightParen).map fun _ => []) ?_ rfl
      intro more stop
      rw [run_args, Cursor.kind_extend none, if_pos closes]
    · refine (arg_completable cursor).of_eq ?_ rfl
      intro more stop
      rw [run_args, Cursor.kind_extend none, if_neg closes]
termination_by 6 * cursor.left + 5

theorem arg_completable (cursor : Cursor) :
    Completable cursor fun cursor => (arg cursor).run := by
  simp only [run_arg]
  refine (expr_completable .lowest cursor).andThen (expr_carries · · .lowest cursor)
    (fun first => takes_moreArgs.map (first :: ·)) closers_rightParen ?_
  intro first next reads _
  have shorter := Parsed.left_of_run_eq_ok reads
  exact (moreArgs_completable next).map _
termination_by 6 * cursor.left + 4

theorem moreArgs_completable (cursor : Cursor) :
    Completable cursor fun cursor => (moreArgs cursor).run := by
  by_cases none : cursor.rest = []
  · exact .of_takes takes_moreArgs none
  · by_cases closes : cursor.kind = .rightParen
    · refine .of_eq ((cursor.expect_completable none .rightParen).map fun _ => []) ?_ rfl
      intro more stop
      rw [run_moreArgs, Cursor.kind_extend none, if_pos closes]
    · by_cases separates : (cursor.kind = .comma || cursor.kind = .endOfInput) = true
      · have separated : Completable cursor fun cursor =>
            (cursor.expect .comma).run.andThen fun _ next => (arg next).run := by
          refine .expect_of_ne_nil none ?_
          intro comma next reads
          have shorter := Parsed.left_of_run_eq_ok reads
          exact arg_completable next
        refine separated.of_eq ?_ rfl
        intro more stop
        rw [run_moreArgs, Cursor.kind_extend none, if_neg closes, if_pos separates]
      · exact .of_complain ((run_moreArgs cursor).trans
          ((if_neg closes).trans (if_neg separates))) none
termination_by 6 * cursor.left

theorem block_completable (cursor : Cursor) :
    Completable cursor fun cursor => (block cursor).run := by
  simp only [run_block]
  refine .expect .leftBrace (fun _ _ _ => takes_inside) ?_
  intro opening inside opens
  have shorter := Parsed.left_of_run_eq_ok opens
  rw [← inside.left_withParens 0] at shorter
  have reads := statements_completable (inside.withParens 0)
  exact (reads.mapCursor (Cursor.rest_withParens inside.parens)).of_eq (fun _ _ => rfl) rfl
termination_by 6 * cursor.left

theorem statements_completable (cursor : Cursor) :
    Completable cursor fun cursor => (statements cursor).run := by
  have bound := cursor.left_skipSemicolons_le
  by_cases none : cursor.skipSemicolons.rest = []
  · intro _ _ _ _
    refine ⟨[.rightBrace], fun tokens more stop spells closing => ?_⟩
    have reads : (statements (cursor.extend (tokens ++ more) stop)).run =
        (statements (cursor.skipSemicolons.extend (tokens ++ more) stop)).run := by
      rw [run_statements, run_statements, skipSemicolons_extend]
    simp only [reads]
    refine takes_statements _ tokens more ?_ spells closing
    rw [Cursor.extend, none, List.nil_append]
  · have kinds (more : List Token) (stop : Position) := Cursor.kind_extend none more stop
    by_cases closes : (cursor.skipSemicolons.kind = .rightBrace ||
        cursor.skipSemicolons.kind = .endOfInput) = true
    · have closing := Cursor.expect_completable none .rightBrace
      refine (closing.map fun _ => []).of_eq (fun more stop => ?_) rfl
      rw [run_statements, skipSemicolons_extend_of_ne_nil more stop none, kinds, if_pos closes]
    · have reads := (statement_completable cursor.skipSemicolons).andThen
        (statement_carries · · cursor.skipSemicolons) takes_ending closers_rightBrace ?_
      · refine reads.of_eq (fun more stop => ?_) rfl
        rw [run_statements, skipSemicolons_extend_of_ne_nil more stop none, kinds, if_neg closes]
      · intro first between reads nonempty
        refine (endStatement_completable nonempty).andThen
          (fun more stop => endStatement_carries more stop .rightBrace (.inr rfl))
          (fun _ => takes_statements.map (first :: ·)) closers_rightBrace ?_
        intro _ next ends _
        have shorter := Parsed.left_of_run_eq_ok reads
        have further := Parsed.left_of_run_eq_ok ends
        exact (statements_completable next).map _
termination_by 6 * cursor.left + 5

theorem statement_completable (cursor : Cursor) :
    Completable cursor fun cursor => (statement cursor).run := by
  match cursor with
  | ⟨prev, [], stop, parens⟩ => exact .of_takes takes_statement rfl
  | ⟨prev, token :: rest, stop, parens⟩ =>
      have shorter := Cursor.left_next prev token rest stop parens
      have whole := (expr_completable .lowest ⟨prev, token :: rest, stop, parens⟩).map Stmt.expr
      have reads (more : List Token) (stop' : Position) :=
        run_statement_cons prev token (rest ++ more) stop' parens
      cases kind : token.kind <;> simp only [kind] at reads
      case returnWord =>
        exact ((expr_completable .lowest ⟨some token, rest, stop, parens⟩).map _).of_eq reads rfl
      case letWord =>
        have named : Completable ⟨some token, rest, stop, parens⟩ fun cursor =>
            (cursor.expect .identifier).run.andThen fun name next =>
              (next.expect .assign).run.andThen fun _ next =>
                (expr .lowest next).run.map (Stmt.declare token.pos name.lexeme) := by
          have takes (name : Token) :=
            (takes_expr .lowest).map (Stmt.declare token.pos name.lexeme)
          refine .expect (.name 0) (fun name _ _ => .expect .assign fun _ _ _ => takes name) ?_
          intro name inside names
          refine .expect .assign (fun _ _ _ => takes name) ?_
          intro mark behind marks
          have further := Parsed.left_of_run_eq_ok names
          have beyond := Parsed.left_of_run_eq_ok marks
          exact (expr_completable .lowest behind).map _
        exact named.of_eq reads rfl
      case identifier =>
        match equal : rest with
        | [] => exact .of_ok (run_statement_identifier kind closing_nil.ending)
        | mark :: rest' =>
            have further : Cursor.left ⟨some mark, rest', stop, parens⟩ + 2 ≤
                Cursor.left ⟨prev, token :: rest, stop, parens⟩ := by
              simp [Cursor.left, equal]
            by_cases marked : mark.kind = .assign
            · have given := expr_completable .lowest ⟨some mark, rest', stop, parens⟩
              exact (given.map _).of_eq (fun more stop' => (reads more stop').trans
                (if_pos marked)) rfl
            · exact whole.of_eq (fun more stop' => (reads more stop').trans (if_neg marked)) rfl
      case ifWord =>
        exact ((branch_completable token.pos ⟨some token, rest, stop, parens⟩).map _).of_eq
          reads rfl
      all_goals exact whole.of_eq reads rfl
termination_by 6 * cursor.left + 4

end

end Parser
end Siren
