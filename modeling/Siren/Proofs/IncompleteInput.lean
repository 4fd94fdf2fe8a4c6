import Siren.Proofs.LexerExtension
import Siren.Proofs.ParserCompletion
import Siren.Proofs.SyntaxErrorPlaces

/-!
# Incomplete input

A source with syntax errors is incomplete exactly when more lines can make it
valid.  If its first error stands before a token, that error is there whatever
follows.  If it stands at the end of the input, the pieces that complete the
statement being read are written out on one more line.
-/

namespace Siren

namespace Parser

/-! ## Programs with more tokens ahead -/

/-- A statement of a program that ends before a token is read the same way with
more tokens ahead. -/
theorem closedStatement_extend
    {cursor : Cursor}
    (nonempty : (closedStatement cursor).run.cursor.rest ≠ [])
    (more : List Token)
    (stop : Position) :
    (closedStatement (cursor.extend more stop)).run =
      (closedStatement cursor).run.mapCursor (Cursor.extend · more stop) := by
  have carries := statement_carries more stop cursor
  rw [run_closedStatement] at nonempty ⊢
  rw [run_closedStatement]
  rcases reads : (statement cursor).run with ⟨error, last⟩ | ⟨stmt, between⟩
  · rw [reads] at nonempty carries
    rw [carries.same (.inl nonempty)]
    rfl
  · rw [reads, Run.andThen_ok] at nonempty
    have ends := (endStatement_accounts .endOfInput between).map fun _ => stmt
    have behind : between.rest ≠ [] := by
      intro none
      have within := ends.rest_suffix
      rw [none] at within
      exact nonempty (List.suffix_nil.mp within)
    rw [reads] at carries
    have ends := (endStatement_carries more stop .endOfInput (.inl behind)).map fun _ => stmt
    rw [carries.same (.inl behind), Run.mapCursor_ok, Run.andThen_ok, Run.andThen_ok]
    exact ends.same (.inl nonempty)

/-- A statement of a program may end with the input. -/
theorem endStatement_of_ended
    {cursor : Cursor}
    (ended : cursor.rest = []) :
    (endStatement .endOfInput cursor).run = .ok ((), cursor) := by
  have kind : cursor.kind = .endOfInput := by
    rw [Cursor.kind, Cursor.current, ended]
    rfl
  rw [run_endStatement, if_neg (by simp [kind]), if_pos (by simp [kind])]

/-- A statement of a program that fails at the end of the input fails before its
end is looked for. -/
theorem statement_of_closedStatement
    {cursor last : Cursor}
    {error : SyntaxError}
    (failed : (closedStatement cursor).run = .error (error, last))
    (ended : last.rest = []) :
    (statement cursor).run = .error (error, last) := by
  rw [run_closedStatement] at failed
  rcases reads : (statement cursor).run with ⟨error', last'⟩ | ⟨stmt, between⟩
  · rw [reads] at failed
    exact failed
  · rw [reads, Run.andThen_ok] at failed
    by_cases none : between.rest = []
    · rw [endStatement_of_ended none] at failed
      cases failed
    · rw [run_endStatement] at failed
      split at failed
      · rename_i semicolon
        obtain ⟨next, reads⟩ := between.expect_of_kind (by decide) semicolon
        rw [reads] at failed
        cases failed
      · split at failed
        · cases failed
        · split at failed
          · cases failed
            exact absurd ended none
          · cases failed
            exact absurd ended none

theorem program_eq_nil
    {cursor : Cursor}
    (ended : cursor.rest = []) :
    program cursor = ⟨[], []⟩ := by
  have skipped : cursor.skipSemicolons.rest = [] := by
    have within := cursor.rest_skipSemicolons_suffix
    rw [ended] at within
    exact List.suffix_nil.mp within
  rw [program_eq, if_pos skipped]

/-- With more tokens ahead, the errors of a program whose first statement ends
before a token are those of the statements behind it. -/
theorem errors_extend
    {cursor next : Cursor}
    {stmt : Stmt}
    (nonempty : cursor.skipSemicolons.rest ≠ [])
    (reads : (closedStatement cursor.skipSemicolons).run = .ok (stmt, next))
    (further : next.rest ≠ [])
    (more : List Token)
    (stop : Position) :
    (program (cursor.extend more stop)).errors = (program (next.extend more stop)).errors := by
  have extended := closedStatement_extend (by rw [reads]; exact further) more stop
  rw [reads, Run.mapCursor_ok] at extended
  rw [program_eq, skipSemicolons_extend_of_ne_nil more stop nonempty, extended,
    if_neg (by simp [Cursor.extend, nonempty])]

/-- A program whose first error is at the end of the input can be completed. -/
theorem exists_completion
    (cursor : Cursor)
    (noEnd : ∀ token ∈ cursor.rest, token.kind ≠ .endOfInput)
    (incomplete : SyntaxError.isIncomplete (program cursor).errors = true) :
    ∃ pieces, ∀ tokens stop, Spells pieces tokens →
      (program (cursor.extend tokens stop)).errors = [] := by
  have bound := cursor.left_skipSemicolons_le
  rw [program_eq] at incomplete
  split at incomplete
  · cases incomplete
  · rename_i nonempty
    have accounts := closedStatement_accounts cursor.skipSemicolons
    have noEnd' : ∀ token ∈ cursor.skipSemicolons.rest, token.kind ≠ .endOfInput :=
      fun token member => noEnd token (cursor.rest_skipSemicolons_suffix.subset member)
    split at incomplete
    · rename_i stmt next reads
      have shorter := Parsed.left_of_run_eq_ok reads
      have further : next.rest ≠ [] := by
        intro none
        rw [program_eq_nil none] at incomplete
        cases incomplete
      rw [reads] at accounts
      -- The statement that the input ends in is further on.
      obtain ⟨pieces, complete⟩ := exists_completion next
        (fun token member => noEnd' token (accounts.subset member)) incomplete
      refine ⟨pieces, fun tokens stop spells => ?_⟩
      rw [errors_extend nonempty reads further]
      exact complete tokens stop spells
    · rename_i error last reads
      rw [reads] at accounts
      have ended := (accounts.incomplete_iff noEnd').mp incomplete
      -- The end of the input closes a statement, so it failed in the statement itself.
      have failed := statement_of_closedStatement reads ended
      obtain ⟨pieces, complete⟩ := statement_completable cursor.skipSemicolons error last failed
        ended
      refine ⟨pieces, fun tokens stop spells => ?_⟩
      obtain ⟨stmt, next, reads, none⟩ := complete tokens [] stop spells closing_nil
      rw [List.append_nil] at reads
      dsimp only at reads
      rw [program_eq, skipSemicolons_extend_of_ne_nil tokens stop nonempty,
        if_neg (by simp [Cursor.extend, nonempty]), run_closedStatement, reads, Run.andThen_ok,
        endStatement_of_ended none, Run.map_ok]
      exact congrArg Result.errors (program_eq_nil none)
termination_by cursor.left

/-- A program whose first error is before a token has errors whatever follows. -/
theorem errors_extend_ne_nil
    (cursor : Cursor)
    (noEnd : ∀ token ∈ cursor.rest, token.kind ≠ .endOfInput)
    (failed : (program cursor).errors ≠ [])
    (finished : SyntaxError.isIncomplete (program cursor).errors = false)
    (more : List Token)
    (stop : Position) :
    (program (cursor.extend more stop)).errors ≠ [] := by
  have bound := cursor.left_skipSemicolons_le
  rw [program_eq] at failed finished
  split at failed
  · exact absurd rfl failed
  · rename_i nonempty
    rw [if_neg nonempty] at finished
    have accounts := closedStatement_accounts cursor.skipSemicolons
    have noEnd' : ∀ token ∈ cursor.skipSemicolons.rest, token.kind ≠ .endOfInput :=
      fun token member => noEnd token (cursor.rest_skipSemicolons_suffix.subset member)
    split at failed
    · rename_i stmt next reads
      have shorter := Parsed.left_of_run_eq_ok reads
      rw [reads] at accounts finished
      have further : next.rest ≠ [] := by
        intro none
        rw [program_eq_nil none] at failed
        exact failed rfl
      rw [errors_extend nonempty reads further]
      exact errors_extend_ne_nil next (fun token member => noEnd' token (accounts.subset member))
        failed finished more stop
    · rename_i error last reads
      rw [reads] at accounts finished
      have further : last.rest ≠ [] := by
        intro none
        have incomplete := (accounts.incomplete_iff noEnd').mpr none
        exact absurd (finished.symm.trans incomplete) (by decide)
      have extended := closedStatement_extend (by rw [reads]; exact further) more stop
      rw [program_eq, skipSemicolons_extend_of_ne_nil more stop nonempty, extended, reads,
        Run.mapCursor_error, if_neg (by simp [Cursor.extend, nonempty])]
      exact List.cons_ne_nil _ _
termination_by cursor.left

end Parser

/-! ## Writing pieces -/

namespace Piece

/-- The pieces in a line, each with a space behind it. -/
def write (pieces : List Piece) : Text :=
  pieces.flatMap fun piece => piece.lexeme ++ [Text.space]

/-- A piece with a space behind it is one token. -/
theorem recognise_lexeme (piece : Piece) (more : Text) :
    Lexeme.recognise (piece.lexeme ++ Text.space :: more) =
      .token piece.kind piece.lexeme := by
  cases piece with
  | name length =>
      have whole : List.takeWhile Lexeme.isWordByte
          ((Piece.name length).lexeme ++ Text.space :: more) = (Piece.name length).lexeme := by
        rw [List.takeWhile_append_of_pos]
        · simp only [List.takeWhile_cons, show Lexeme.isWordByte Text.space = false by decide]
          simp
        · intro byte member
          rw [List.eq_of_mem_replicate member]
          decide
      have word : Lexeme.wordKind (Piece.name length).lexeme = .identifier := rfl
      show Lexeme.Found.token
        (Lexeme.wordKind (List.takeWhile Lexeme.isWordByte
          ((Piece.name length).lexeme ++ Text.space :: more)))
        (List.takeWhile Lexeme.isWordByte ((Piece.name length).lexeme ++ Text.space :: more)) = _
      rw [whole, word]
      rfl
  | assign => rfl
  | leftParen => rfl
  | rightParen => rfl
  | leftBrace => rfl
  | rightBrace => rfl
  | zero => rfl

theorem kind_ne_endOfInput (piece : Piece) : piece.kind ≠ .endOfInput := by
  cases piece <;> exact nofun

/-- Pieces are written in one line. -/
theorem lineFeed_not_mem_write (pieces : List Piece) : Text.lineFeed ∉ write pieces := by
  have single (piece : Piece) : Text.lineFeed ∉ piece.lexeme := by
    cases piece with
    | name length =>
        intro member
        exact absurd (List.eq_of_mem_replicate member) (by decide)
    | _ => decide
  intro member
  obtain ⟨piece, _, within⟩ := List.mem_flatMap.mp member
  rcases List.mem_append.mp within with inside | behind
  · exact single piece inside
  · exact absurd behind (by decide)

theorem exists_lexeme_eq_cons (piece : Piece) :
    ∃ first rest, piece.lexeme = first :: rest ∧ Lexeme.isBlank first = false ∧ first ≠ 45 := by
  cases piece <;> exact ⟨_, _, rfl, by decide, by decide⟩

end Piece

/-- The tokens of a line of pieces spell them. -/
theorem Piece.spells_write
    {blank : UInt8}
    (single : Lexeme.isBlank blank = true)
    (pieces : List Piece)
    (pos : Position)
    (last : Kind) :
    Spells pieces (Lexer.body ⟨blank :: write pieces, pos, last⟩) := by
  induction pieces generalizing blank pos last with
  | nil =>
      have ended : Lexer.next ⟨[blank], pos, last⟩ = Lexer.next ⟨[], _, last⟩ :=
        Lexer.next_blank single [] pos last
      rw [Lexer.body_eq, write, List.flatMap_nil, ended, Lexer.next_eq]
      exact .nil
  | cons piece pieces inductionHypothesis =>
      obtain ⟨first, rest, lexeme, nonblank, unsigned⟩ := piece.exists_lexeme_eq_cons
      have written : write (piece :: pieces) = piece.lexeme ++ Text.space :: write pieces := by
        simp [write]
      have signed (pos : Position) :
          Lexer.signed? ⟨write (piece :: pieces), pos, last⟩ = none := by
        rw [written, lexeme]
        simp [Lexer.signed?, unsigned]
      have found : Lexeme.recognise (write (piece :: pieces)) =
          .token piece.kind piece.lexeme := by
        rw [written]
        exact piece.recognise_lexeme (write pieces)
      have reads : Lexer.next ⟨blank :: write (piece :: pieces), pos, last⟩ =
          (⟨piece.kind, piece.lexeme, pos.advance [blank]⟩, ⟨Text.space :: write pieces,
            (pos.advance [blank]).advance piece.lexeme, piece.kind⟩) := by
        rw [Lexer.next_blank single, Lexer.next_eq, signed]
        simp only [found]
        simp [Lexer.emit, written]
      rw [Lexer.body_eq, reads, if_neg piece.kind_ne_endOfInput]
      exact .cons rfl rfl (inductionHypothesis (by decide) _ _)

/-! ## Sources with more lines -/

theorem Cursor.rest_ofText (source : Text) :
    (Cursor.ofTokens (Token.ofText source)).rest = (Lexer.ofText source).body := rfl

/-- More lines add tokens behind those of the source. -/
theorem Cursor.exists_extend_ofText (source more : Text) :
    ∃ stop, Cursor.ofTokens (Token.ofText (source ++ [Text.lineFeed] ++ more)) =
      (Cursor.ofTokens (Token.ofText source)).extend
        (Lexer.body ⟨Text.lineFeed :: more, Position.start.advance source,
          (Lexer.ofText source).lastOfBody⟩) stop := by
  have equal := (Lexer.ofText source).body_addLines more
  have lines : (Lexer.ofText source).addLines more =
      Lexer.ofText (source ++ [Text.lineFeed] ++ more) := by
    simp [Lexer.ofText, Lexer.addLines]
  rw [lines, ← rest_ofText, ← rest_ofText] at equal
  exact ⟨(Cursor.ofTokens (Token.ofText (source ++ [Text.lineFeed] ++ more))).stop,
    by rw [extend]; exact equal ▸ rfl⟩

theorem Cursor.kind_ne_endOfInput_of_mem
    {tokens : List Token}
    {token : Token}
    (member : token ∈ (Cursor.ofTokens tokens).rest) :
    token.kind ≠ .endOfInput := by
  simpa using List.all_eq_true.mp List.all_takeWhile token member

/-- Incomplete sources are completed by one more line. -/
theorem Program.exists_line_completing
    {source : Text}
    (incomplete : SyntaxError.isIncomplete (Program.ofText source).errors = true) :
    ∃ line, Text.lineFeed ∉ line ∧
      (Program.ofText (source ++ [Text.lineFeed] ++ line)).errors = [] := by
  obtain ⟨pieces, complete⟩ := Parser.exists_completion _
    (fun _ => Cursor.kind_ne_endOfInput_of_mem) incomplete
  refine ⟨Piece.write pieces, Piece.lineFeed_not_mem_write pieces, ?_⟩
  obtain ⟨stop, equal⟩ := Cursor.exists_extend_ofText source (Piece.write pieces)
  rw [Program.ofText, Program.ofTokens, equal]
  exact complete _ stop (Piece.spells_write (by decide) pieces _ _)

/-- Sources with an error before a token have errors with every further line. -/
theorem Program.errors_ne_nil_of_lines
    {source : Text}
    (failed : (Program.ofText source).errors ≠ [])
    (finished : SyntaxError.isIncomplete (Program.ofText source).errors = false)
    (more : Text) :
    (Program.ofText (source ++ [Text.lineFeed] ++ more)).errors ≠ [] := by
  obtain ⟨stop, equal⟩ := Cursor.exists_extend_ofText source more
  rw [Program.ofText, Program.ofTokens, equal]
  exact Parser.errors_extend_ne_nil _ (fun _ => Cursor.kind_ne_endOfInput_of_mem) failed finished
    _ stop

end Siren
