import Siren.Proofs.LineBreaks
import Siren.Proofs.ParserProgress

/-!
# Where statements of a program begin

Each statement of a program that is read opens and closes the same braces, so behind it
as many are open as before it.  After a syntax error the parser counts braces from the
token where it stands, not from the start of the statement.  So where it goes on no more
braces are open than at that token; but some can be.
-/

namespace Siren

namespace Token

/-! ## Open braces -/

/-- The number of braces open after one more token.  A closing brace is of no account
where none is open. -/
def brace (count : Nat) : Kind → Nat
  | .leftBrace => count + 1
  | .rightBrace => count - 1
  | _ => count

/-- The number of braces open after a list of tokens. -/
def depth (count : Nat) (tokens : List Token) : Nat :=
  tokens.foldl (fun count token => brace count token.kind) count

@[simp] theorem depth_nil (count : Nat) : depth count [] = count := rfl

@[simp] theorem depth_cons (count : Nat) (token : Token) (tokens : List Token) :
    depth count (token :: tokens) = depth (brace count token.kind) tokens := rfl

theorem depth_append (count : Nat) (tokens tokens' : List Token) :
    depth count (tokens ++ tokens') = depth (depth count tokens) tokens' :=
  List.foldl_append

/-- Semicolons open and close nothing. -/
theorem depth_of_semicolons
    {tokens : List Token}
    (semicolons : ∀ token ∈ tokens, token.kind = .semicolon)
    (count : Nat) :
    depth count tokens = count := by
  induction tokens with
  | nil => rfl
  | cons token tokens inductionHypothesis =>
      rw [depth_cons, semicolons token List.mem_cons_self]
      exact inductionHypothesis fun other member => semicolons other (List.mem_cons_of_mem _ member)

/-- If so many more braces are open at first, no more than so many more are at last. -/
theorem depth_le_add
    {count count' more : Nat}
    (tokens : List Token)
    (bound : count ≤ more + count') :
    depth count tokens ≤ more + depth count' tokens := by
  induction tokens generalizing count count' with
  | nil => exact bound
  | cons token tokens inductionHypothesis =>
      have step : brace count token.kind ≤ more + brace count' token.kind := by
        cases token.kind
        case leftBrace => exact Nat.succ_le_succ bound
        case rightBrace =>
          simp only [brace]
          omega
        all_goals exact bound
      exact inductionHypothesis step

/-- The braces that are open are counted by the numbers of parentheses inside them. -/
theorem length_nest (opened : List Nat) (kind : Kind) :
    (nest opened kind).length = brace opened.length kind := by
  cases kind <;> cases opened <;> rfl

theorem length_nesting (opened : List Nat) (tokens : List Token) :
    (nesting opened tokens).length = depth opened.length tokens := by
  induction tokens generalizing opened with
  | nil => rfl
  | cons token tokens inductionHypothesis =>
      rw [nesting_cons, inductionHypothesis, length_nest, depth_cons]

/-- The outermost brace stays open, or it no longer matters what was open inside. -/
theorem nesting_eq_or_depth_succ
    (opened : List Nat)
    (parens parens' : Nat)
    (tokens : List Token) :
    nesting (opened ++ [parens]) tokens = nesting (opened ++ [parens']) tokens ∨
      depth (opened.length + 1) tokens = depth opened.length tokens + 1 := by
  induction tokens generalizing opened parens parens' with
  | nil => exact .inr rfl
  | cons token tokens inductionHypothesis =>
      rw [nesting_cons, nesting_cons, depth_cons, depth_cons]
      cases token.kind
      case leftBrace => exact inductionHypothesis (0 :: opened) parens parens'
      case rightBrace =>
        cases opened with
        | nil => exact .inl rfl
        | cons inner opened => exact inductionHypothesis opened parens parens'
      case leftParen =>
        cases opened with
        | nil => exact inductionHypothesis [] (parens + 1) (parens' + 1)
        | cons inner opened => exact inductionHypothesis ((inner + 1) :: opened) parens parens'
      case rightParen =>
        cases opened with
        | nil => exact inductionHypothesis [] (parens - 1) (parens' - 1)
        | cons inner opened => exact inductionHypothesis ((inner - 1) :: opened) parens parens'
      all_goals exact inductionHypothesis opened parens parens'

/-- What closes all that it opens leaves as many braces open as before it. -/
theorem Balanced.depth_eq
    {tokens : List Token}
    (balanced : Balanced tokens)
    (count : Nat) :
    depth count tokens = count := by
  have positive (outer : List Nat) : depth (outer.length + 1) tokens = outer.length + 1 := by
    have length := length_nesting (0 :: outer) tokens
    rwa [balanced, List.length_cons, eq_comm] at length
  cases count with
  | succ count => simpa using positive (List.replicate count 0)
  | zero =>
      rcases nesting_eq_or_depth_succ [] 0 1 tokens with same | more
      · rw [List.nil_append, List.nil_append, balanced, balanced] at same
        cases same
      · have one := positive []
        simp only [List.length_nil] at more one
        omega

/-- Skipping a statement ends behind a semicolon outside of braces, or with the tokens. -/
theorem depth_statementLength (count : Nat) (tokens : List Token) :
    tokens.drop (Cursor.statementLength count tokens) = [] ∨
      depth count (tokens.take (Cursor.statementLength count tokens)) = 0 := by
  induction tokens generalizing count with
  | nil => exact .inl rfl
  | cons token tokens inductionHypothesis =>
      cases kind : token.kind
      case semicolon =>
        by_cases outside : count = 0
        · simp [Cursor.statementLength, kind, outside, brace]
        · simpa [Cursor.statementLength, kind, outside, brace] using inductionHypothesis count
      all_goals
        simpa [Cursor.statementLength, kind, brace] using inductionHypothesis _

end Token

/-! ## Cursors -/

namespace Cursor

/-- The number of braces of a token list that are open at a cursor. -/
def depthIn (body : List Token) (cursor : Cursor) : Nat :=
  Token.depth 0 (body.take (body.length - cursor.left))

variable {body tokens : List Token} {start next : Cursor}

theorem Passes.depthIn_eq
    (passes : start.Passes tokens next)
    (ahead : start.rest <:+ body) :
    next.depthIn body = Token.depth (start.depthIn body) tokens := by
  obtain ⟨before, rfl⟩ := ahead
  have left := passes.left_eq
  rw [depthIn, depthIn, left, passes.rest, ← Token.depth_append]
  have behind : (before ++ (tokens ++ next.rest)).length - next.left =
      before.length + tokens.length := by
    simp [Cursor.left]
    omega
  have ahead : (before ++ (tokens ++ next.rest)).length - (tokens.length + next.left) =
      before.length := by
    simp [Cursor.left]
  rw [behind, ahead, List.take_left, List.take_length_add_append, List.take_left]

theorem Passes.ahead
    (passes : start.Passes tokens next)
    (ahead : start.rest <:+ body) :
    next.rest <:+ body :=
  List.IsSuffix.trans (passes.rest ▸ List.suffix_append _ _) ahead

theorem depthIn_skipSemicolons
    {cursor : Cursor}
    (ahead : cursor.rest <:+ body) :
    cursor.skipSemicolons.depthIn body = cursor.depthIn body := by
  rw [cursor.passes_skipSemicolons.depthIn_eq ahead]
  refine Token.depth_of_semicolons (fun token member => ?_) _
  simpa using List.all_eq_true.mp List.all_takeWhile token member

/-- Where reading goes on after an error no more braces are open than at the error. -/
theorem depthIn_recover_le
    {cursor : Cursor}
    (ahead : cursor.rest <:+ body) :
    cursor.recover.rest = [] ∨ cursor.recover.depthIn body ≤ cursor.depthIn body := by
  rcases Token.depth_statementLength 0 cursor.rest with ended | closed
  · exact .inl ended
  · refine .inr ?_
    rw [recover, (cursor.passes_drop _).depthIn_eq ahead]
    have bound := Token.depth_le_add (cursor.rest.take (statementLength 0 cursor.rest))
      (Nat.le_refl (cursor.depthIn body + 0))
    rwa [closed] at bound

end Cursor

/-! ## Rounds -/

/-- No brace is open at the cursor, or no more than where one of the rounds failed. -/
def Cursor.NoDeeper (body : List Token) (seen : List Parser.Round) (cursor : Cursor) : Prop :=
  cursor.depthIn body = 0 ∨
    ∃ failed ∈ seen, failed.run.isOk = false ∧
      cursor.depthIn body ≤ failed.run.cursor.depthIn body

namespace Parser

variable {body : List Token} {cursor last : Cursor} {rounds seen : List Round}

/-- A statement of a program leaves as many braces open as it found. -/
theorem closedStatement_depthIn
    {stmt : Stmt}
    {next : Cursor}
    (closed : cursor.parens = 0)
    (ahead : cursor.rest <:+ body)
    (reads : (closedStatement cursor).run = .ok (stmt, next)) :
    next.depthIn body = cursor.depthIn body := by
  rw [run_closedStatement] at reads
  obtain ⟨_, between, first, closes⟩ := Run.andThen_eq_ok.mp reads
  obtain ⟨_, ends, rfl⟩ := Run.map_eq_ok.mp closes
  obtain ⟨tokens, passes, derived, _⟩ :=
    statement_sound cursor (by simp [Cursor.grouped, closed]) first
  have kept : between.depthIn body = cursor.depthIn body := by
    rw [passes.depthIn_eq ahead, derived.balanced.depth_eq]
  rcases endStatement_sound ends with ⟨semicolon, kind, passes'⟩ | ⟨rfl, _⟩
  · rw [passes'.depthIn_eq (passes.ahead ahead), kept]
    exact Token.depth_of_semicolons (by simpa using kind) _
  · exact kept

/-- Behind a round no more braces are open than before it, or than where it failed. -/
theorem Round.noDeeper_next
    (closed : cursor.parens = 0)
    (ahead : cursor.skipSemicolons.rest <:+ body)
    (start : cursor.skipSemicolons.NoDeeper body seen) :
    (ofCursor cursor).next.rest = [] ∨
      (ofCursor cursor).next.NoDeeper body (seen ++ [ofCursor cursor]) := by
  rcases reads : (closedStatement cursor.skipSemicolons).run with ⟨error, stop⟩ | ⟨stmt, next⟩
  · have failed : ofCursor cursor = ⟨cursor.skipSemicolons, .error (error, stop)⟩ := by
      rw [ofCursor, reads]
    obtain ⟨tokens, passes, -⟩ := Run.advances_invariant.closedStatement cursor.skipSemicolons
    rw [reads] at passes
    rw [failed]
    refine (Cursor.depthIn_recover_le (passes.ahead ahead)).imp id fun shallow => .inr ?_
    exact ⟨_, List.mem_append_right seen List.mem_cons_self, rfl, shallow⟩
  · have done : ofCursor cursor = ⟨cursor.skipSemicolons, .ok (stmt, next)⟩ := by
      rw [ofCursor, reads]
    have kept : next.depthIn body = cursor.skipSemicolons.depthIn body :=
      closedStatement_depthIn closed ahead reads
    rw [done]
    refine .inr ?_
    show next.NoDeeper body _
    rw [Cursor.NoDeeper, kept]
    refine start.imp id ?_
    rintro ⟨earlier, member, failed, shallow⟩
    exact ⟨earlier, List.mem_append_left _ member, failed, shallow⟩

/-- Round by round, a statement begins no deeper than an earlier round has failed. -/
theorem Rounds.noDeeper
    (read : Rounds cursor rounds last)
    (closed : cursor.parens = 0)
    (ahead : cursor.rest <:+ body)
    (begins : cursor.rest = [] ∨ cursor.NoDeeper body seen)
    {before after : List Round}
    {round : Round}
    (split : rounds = before ++ round :: after) :
    round.start.NoDeeper body (seen ++ before) := by
  induction read generalizing seen before with
  | ended nothing => simp at split
  | @step cursor last rounds more others inductionHypothesis =>
      have start : cursor.skipSemicolons.NoDeeper body seen := by
        have nonempty : cursor.rest ≠ [] := by
          intro none
          exact more (List.suffix_nil.mp (none ▸ List.drop_suffix _ _))
        rw [Cursor.NoDeeper, Cursor.depthIn_skipSemicolons ahead]
        exact begins.resolve_left nonempty
      cases before with
      | nil =>
          obtain ⟨rfl, -⟩ := List.cons.inj split
          rwa [List.append_nil]
      | cons first before =>
          obtain ⟨rfl, others⟩ := List.cons.inj split
          obtain ⟨_, -, passes⟩ := Round.exists_passes more
          have ahead' := cursor.passes_skipSemicolons.ahead ahead
          rw [List.append_cons]
          exact inductionHypothesis (passes.parens.trans closed) (passes.ahead ahead')
            (Round.noDeeper_next closed ahead' start) others

end Parser

/-- The statements of a program begin outside of braces, up to the first syntax error
inside of braces; behind such an error they begin with no more braces open than there. -/
theorem statements_begin_no_deeper_than_errors (tokens : List Token) :
    ∃ rounds last,
      Parser.Rounds (.ofTokens tokens) rounds last ∧
      Program.ofTokens tokens = .ofRounds rounds ∧
      ∀ before round after, rounds = before ++ round :: after →
        round.start.NoDeeper (Cursor.ofTokens tokens).rest before := by
  obtain ⟨rounds, last, read⟩ := Parser.exists_rounds (.ofTokens tokens)
  refine ⟨rounds, last, read, read.program_eq, ?_⟩
  intro before round after split
  have outside : (Cursor.ofTokens tokens).NoDeeper (Cursor.ofTokens tokens).rest [] :=
    .inl (by simp [Cursor.depthIn, Cursor.left])
  exact read.noDeeper rfl (List.suffix_refl _) (.inr outside) split

/-- Behind an error in the body of a function, the next statement of the body is read as a
statement of the program. -/
theorem statement_begins_inside_braces :
    let tokens := Token.ofText "fn() \x7b let = 1; x; \x7d"
    ∃ first second rounds last,
      Parser.Rounds (.ofTokens tokens) (first :: second :: rounds) last ∧
      Program.ofTokens tokens = .ofRounds (first :: second :: rounds) ∧
      first.run.isOk = false ∧ second.run.isOk = true ∧
      second.start.current = ⟨.identifier, "x", ⟨1, 17, 16⟩⟩ ∧
      second.start.depthIn (Cursor.ofTokens tokens).rest = 1 := by
  intro tokens
  have first : (Cursor.ofTokens tokens).skipSemicolons.rest ≠ [] := by decide +kernel
  have second : (Parser.Round.ofCursor (.ofTokens tokens)).next.skipSemicolons.rest ≠ [] := by
    decide +kernel
  obtain ⟨rounds, last, read⟩ := Parser.exists_rounds
    (Parser.Round.ofCursor (Parser.Round.ofCursor (.ofTokens tokens)).next).next
  have whole := Parser.Rounds.step first (.step second read)
  exact ⟨_, _, rounds, last, whole, whole.program_eq, by decide +kernel, by decide +kernel,
    by decide +kernel, by decide +kernel⟩

end Siren
