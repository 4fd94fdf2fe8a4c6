import Siren.Proofs.IntegerLiterals
import Siren.Proofs.TokensAmongBlanks

/-!
# Chunks without the white space around them

The console decides on the lines of a chunk whether more are needed, and evaluates the chunk
without the white space around it.  Both agree where trimming cuts off no illegal token: the
tokens are then the same, all of them as many lines further down, and so are the tokens of
further lines.  A text is incomplete if and only if a further line makes it valid, so
neither is without the other.
-/

namespace Siren

/-! ## Tokens further down -/

namespace Token

variable {down : Int} {opened : List Nat} {tokens tokens' more more' : List Token}

theorem Below.symm {token token' : Token} (below : Below down token token') :
    Below (-down) token' token where
  kind := below.kind.symm
  lexeme := below.lexeme.symm
  line := by
    rw [below.line]
    omega

/-- Tokens that are all as many lines further down are alike. -/
theorem alikeFrom_of_below
    (below : List.Forall₂ (Below down) tokens tokens')
    (opened : List Nat) :
    AlikeFrom opened tokens tokens' := by
  induction below generalizing opened with
  | nil => exact .nil
  | cons token rest inductionHypothesis =>
      refine .cons token.kind token.lexeme ?_ (inductionHypothesis _)
      intro _ _ next heads next' heads'
      cases rest with
      | nil => cases heads
      | cons behind _ =>
          obtain rfl := Option.some.inj heads
          obtain rfl := Option.some.inj heads'
          rw [token.line, behind.line]
          omega

/-- Alike tokens on earlier lines may stand in front of alike tokens. -/
theorem AlikeFrom.append
    (first : AlikeFrom opened tokens tokens')
    (second : AlikeFrom (nesting opened tokens) more more')
    (apart : ∀ token ∈ tokens, ∀ next ∈ more, token.pos.line < next.pos.line)
    (apart' : ∀ token ∈ tokens', ∀ next ∈ more', token.pos.line < next.pos.line) :
    AlikeFrom opened (tokens ++ more) (tokens' ++ more') := by
  induction first with
  | nil => exact second
  | cons kind lexeme breaks rest inductionHypothesis =>
      rw [List.forall_mem_cons] at apart apart'
      refine .cons kind lexeme ?_ (inductionHypothesis second apart.2 apart'.2)
      intro brace ungrouped next heads next' heads'
      cases rest with
      | nil =>
          exact iff_of_true (apart.1 next (List.mem_of_mem_head? heads))
            (apart'.1 next' (List.mem_of_mem_head? heads'))
      | cons _ _ _ _ => exact breaks brace ungrouped next heads next' heads'

end Token

namespace Lexer

open Token (AlikeFrom)

variable {source source' : Text} {down : Int}

/-- The tokens of a source with more lines. -/
theorem body_ofText_lines (source more : Text) :
    (ofText (source ++ [Text.lineFeed] ++ more)).body = (ofText source).body ++
      body ⟨Text.lineFeed :: more, Position.start.advance source, (ofText source).lastOfBody⟩ := by
  rw [List.append_assoc]
  exact (ofText source).body_addLines more

/-- More lines are later lines. -/
theorem line_lt_of_mem_body
    {more : Text}
    {last : Kind}
    {token : Token}
    (member : token ∈ body ⟨Text.lineFeed :: more, Position.start.advance source, last⟩) :
    (Position.start.advance source).line < token.pos.line := by
  have place : Position.start.advance source = .behind source :=
    (Position.behind_append [] source).symm
  rw [body_eq, next_blank rfl, ← body_eq, place, ← Position.behind_append_singleton] at member
  obtain ⟨gap, -, placed⟩ := Layout.exists_behind (layout_tokenize rfl)
    (body_subset_tokenize _ member)
  rw [placed, place, Position.behind, Position.behind]
  simp only [List.count_append, List.count_singleton_self]
  omega

theorem lastOfBody_of_below
    (below : List.Forall₂ (Token.Below down) (ofText source).body (ofText source').body) :
    (ofText source').lastOfBody = (ofText source).lastOfBody := by
  have kinds := congrArg List.getLast? (Token.alikeFrom_of_below below []).kinds
  rw [List.getLast?_map, List.getLast?_map] at kinds
  rw [lastOfBody, lastOfBody, kinds]
  rfl

/-- Tokens further down are followed by alike tokens of further lines. -/
theorem alikeFrom_lines
    (below : List.Forall₂ (Token.Below down) (ofText source).body (ofText source').body)
    (more : Text) :
    AlikeFrom [0] (ofText (source ++ [Text.lineFeed] ++ more)).body
      (ofText (source' ++ [Text.lineFeed] ++ more)).body := by
  have apart (source : Text) (last : Kind) : ∀ token ∈ (ofText source).body,
      ∀ next ∈ body ⟨Text.lineFeed :: more, Position.start.advance source, last⟩,
        token.pos.line < next.pos.line := fun token earlier next later =>
    Int.lt_of_le_of_lt (line_le_of_mem_body earlier) (line_lt_of_mem_body later)
  have further : Below
      ((Position.start.advance source').line - (Position.start.advance source).line)
      ⟨Text.lineFeed :: more, Position.start.advance source, (ofText source).lastOfBody⟩
      ⟨Text.lineFeed :: more, Position.start.advance source', (ofText source').lastOfBody⟩ :=
    ⟨rfl, lastOfBody_of_below below, by dsimp only; omega⟩
  rw [body_ofText_lines, body_ofText_lines]
  exact (Token.alikeFrom_of_below below [0]).append
    (Token.alikeFrom_of_below further.body _) (apart source _) (apart source' _)

end Lexer

/-! ## Programs further down -/

namespace Program

open Token (Below AlikeFrom)

variable {source source' : Text} {down : Int}

/-- A program of alike tokens has no syntax errors either. -/
theorem errors_eq_nil_of_alikeFrom
    (alike : AlikeFrom [0] (Lexer.ofText source).body (Lexer.ofText source').body)
    (clean : (Program.ofText source).errors = []) :
    (Program.ofText source').errors = [] := by
  have derived := Parser.program_sound (.ofTokens (Token.ofText source)) rfl clean
  obtain ⟨program', derived', -⟩ := derived.transport alike
  exact congrArg Parser.Result.errors (Parser.program_complete derived' rfl)

theorem errors_eq_nil_iff_of_below
    (below : List.Forall₂ (Below down) (Lexer.ofText source).body (Lexer.ofText source').body) :
    (Program.ofText source).errors = [] ↔ (Program.ofText source').errors = [] := by
  have above :
      List.Forall₂ (Below (-down)) (Lexer.ofText source').body (Lexer.ofText source).body :=
    (below.imp fun _ _ => Below.symm).flip
  exact ⟨errors_eq_nil_of_alikeFrom (Token.alikeFrom_of_below below [0]),
    errors_eq_nil_of_alikeFrom (Token.alikeFrom_of_below above [0])⟩

/-- A line that completes a program completes it further down. -/
theorem isIncomplete_of_below
    (below : List.Forall₂ (Below down) (Lexer.ofText source).body (Lexer.ofText source').body)
    (incomplete : SyntaxError.isIncomplete (Program.ofText source).errors = true) :
    SyntaxError.isIncomplete (Program.ofText source').errors = true := by
  obtain ⟨line, -, valid⟩ := exists_line_completing incomplete
  have valid' := errors_eq_nil_of_alikeFrom (Lexer.alikeFrom_lines below line) valid
  have failed : (Program.ofText source').errors ≠ [] := by
    rw [ne_eq, ← errors_eq_nil_iff_of_below below]
    intro clean
    rw [clean] at incomplete
    cases incomplete
  by_contra finished
  rw [Bool.not_eq_true] at finished
  exact errors_ne_nil_of_lines failed finished line valid'

end Program

/-! ## Trimming -/

namespace Text

/-- Trimming cuts no illegal token off a text. -/
def KeepsIllegal (text : Text) : Prop :=
  ∀ token ∈ Token.ofText text, token.kind = .illegal →
    text.lead.length ≤ token.pos.offset ∧
      token.pos.offset < text.lead.length + text.trim.length

instance (text : Text) : Decidable text.KeepsIllegal :=
  inferInstanceAs (Decidable (∀ token ∈ Token.ofText text, token.kind = .illegal →
    text.lead.length ≤ token.pos.offset ∧
      token.pos.offset < text.lead.length + text.trim.length))

variable {text : Text}

/-- No illegal token stands in front of the trimmed text, so only blanks do. -/
theorem KeepsIllegal.isBlank_lead
    (keeps : text.KeepsIllegal) :
    ∀ byte ∈ text.lead, Lexeme.isBlank byte = true := by
  obtain ⟨trail, whole, before, -⟩ := text.exists_trim
  rw [List.append_assoc] at whole
  rcases Lexer.isBlank_or_exists_illegal before (text.trim ++ trail) .start .endOfInput with
    blank | ⟨token, member, illegal, early⟩
  · exact blank
  · rw [← whole] at member
    have late := (keeps token (Lexer.body_subset_tokenize _ member) illegal).1
    dsimp only [Position.start] at early
    omega

/-- The tokens of a text are those of the trimmed one, at its place in the text. -/
theorem KeepsIllegal.body_eq
    (keeps : text.KeepsIllegal) :
    (Lexer.ofText text).body =
      Lexer.body ⟨text.trim, Position.start.advance text.lead, .endOfInput⟩ := by
  obtain ⟨trail, whole, -, behind⟩ := text.exists_trim
  rw [List.append_assoc] at whole
  let trimmed : Lexer := ⟨text.trim, Position.start.advance text.lead, .endOfInput⟩
  obtain ⟨tail, further, illegal⟩ := trimmed.exists_body_followedBy behind
  have tokens : (Lexer.ofText text).body = trimmed.body ++ tail := by
    rw [← further, Lexer.followedBy, ← Lexer.body_blanks keeps.isBlank_lead, ← whole]
    rfl
  cases tail with
  | nil => rw [tokens, List.append_nil]
  | cons token tail =>
      -- The first token behind the trimmed text would be an illegal one.
      have member : token ∈ (Lexer.ofText text).body := by
        rw [tokens]
        exact List.mem_append_right _ List.mem_cons_self
      obtain ⟨kind, late⟩ := illegal token rfl
      have early := (keeps token (Lexer.body_subset_tokenize _ member) kind).2
      rw [Position.offset_advance] at late
      dsimp only [trimmed, Position.start] at late
      omega

/-- The tokens of a text are those of the trimmed one further down. -/
theorem KeepsIllegal.exists_below
    (keeps : text.KeepsIllegal) :
    ∃ down, List.Forall₂ (Token.Below down) (Lexer.ofText text.trim).body
      (Lexer.ofText text).body := by
  have below : Lexer.Below ((Position.start.advance text.lead).line - Position.start.line)
      (Lexer.ofText text.trim) ⟨text.trim, Position.start.advance text.lead, .endOfInput⟩ :=
    ⟨rfl, rfl, by dsimp only [Lexer.ofText]; omega⟩
  rw [keeps.body_eq]
  exact ⟨_, below.body⟩

/-- A text that keeps its illegal tokens is incomplete if and only if the trimmed one is. -/
theorem KeepsIllegal.isIncomplete_trim
    (keeps : text.KeepsIllegal) :
    SyntaxError.isIncomplete (Program.ofText text.trim).errors =
      SyntaxError.isIncomplete (Program.ofText text).errors := by
  obtain ⟨down, below⟩ := keeps.exists_below
  rw [Bool.eq_iff_iff]
  exact ⟨Program.isIncomplete_of_below below,
    Program.isIncomplete_of_below (below.imp fun _ _ => Token.Below.symm).flip⟩

end Text

namespace Console

theorem eval_of_errors
    {chunk : Text}
    (nonblank : chunk.trim ≠ [])
    (source : chunk.trim.head? ≠ some colon)
    (failed : (Program.ofText chunk.trim).errors ≠ [])
    (color : Bool)
    (session : Session) :
    eval color session chunk =
      ⟨session, Script.syntaxErrorText color chunk.trim (Program.ofText chunk.trim).errors,
        false⟩ := by
  have some : ¬(Program.ofText chunk.trim).errors.isEmpty = true := by
    simpa using failed
  simp only [eval, if_neg nonblank, if_neg source, if_neg some]

/-- The console finds no chunk unfinished that it has read as finished, where trimming cuts
off no illegal token.  What is parsed for the evaluation of such a chunk is not incomplete,
and it has syntax errors if and only if the chunk has; these are what is printed. -/
theorem finished_chunks_are_evaluated_as_finished
    {prompts : Prompts}
    {input : Source}
    {chunk : Text}
    (complete : (read prompts input).chunk = .read chunk)
    (keeps : chunk.KeepsIllegal) :
    SyntaxError.isIncomplete (Program.ofText chunk.trim).errors = false ∧
    ((Program.ofText chunk.trim).errors = [] ↔ (Program.ofText chunk).errors = []) ∧
    (chunk.trim ≠ [] → chunk.trim.head? ≠ some colon → (Program.ofText chunk.trim).errors ≠ [] →
      ∀ color session, eval color session chunk =
        ⟨session, Script.syntaxErrorText color chunk.trim (Program.ofText chunk.trim).errors,
          false⟩) := by
  refine ⟨?_, ?_, eval_of_errors⟩
  · rw [keeps.isIncomplete_trim]
    exact (isFinished_iff chunk).mp (isFinished_of_readFrom complete)
  · obtain ⟨down, below⟩ := keeps.exists_below
    exact Program.errors_eq_nil_iff_of_below below

/-- An illegal token between white space stays, and its error is printed. -/
theorem finished_chunks_are_evaluated_as_finished_dollar :
    let chunk : Text := "  (" ++ Text.lineFeed :: "$ "
    (read ⟨"> ", ". "⟩ ⟨["  (", "$ ", "1"], .closed, true⟩).chunk = .read chunk ∧
      chunk.KeepsIllegal ∧
      SyntaxError.isIncomplete (Program.ofText chunk.trim).errors = false ∧
      (Program.ofText chunk).errors ≠ [] ∧
      (eval false (.start (.atMost 0)) chunk).output =
        Script.syntaxErrorText false chunk.trim (Program.ofText chunk.trim).errors := by
  intro chunk
  have complete : (read ⟨"> ", ". "⟩ ⟨["  (", "$ ", "1"], .closed, true⟩).chunk = .read chunk := by
    decide +kernel
  have keeps : chunk.KeepsIllegal := by decide +kernel
  have failed : (Program.ofText chunk).errors ≠ [] := by decide +kernel
  obtain ⟨finished, clean, printed⟩ := finished_chunks_are_evaluated_as_finished complete keeps
  refine ⟨complete, keeps, finished, failed, ?_⟩
  rw [printed (by decide +kernel) (by decide +kernel) (mt clean.mp failed)]

/-- A vertical tab is an illegal token, and so a chunk that ends with it is finished.  But
it is white space too, and without it the chunk is incomplete. -/
theorem trimmed_chunk_is_incomplete :
    let chunk : Text := Text.ofString "1 +" ++ [11]
    (read ⟨"> ", ". "⟩ ⟨[chunk, "2"], .closed, true⟩).chunk = .read chunk ∧
      chunk.trim = "1 +" ∧
      SyntaxError.isIncomplete (Program.ofText chunk).errors = false ∧
      SyntaxError.isIncomplete (Program.ofText chunk.trim).errors = true ∧
      (eval false (.start (.atMost 0)) chunk).output =
        "Error at 1:4: Missing expression\n1 +\n   ^\n" := by
  decide +kernel

end Console
end Siren
