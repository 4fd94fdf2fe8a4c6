import Siren.Proofs.ParserRuns

/-!
# Runs with more tokens ahead

A run of the parser is compared with the run that has more tokens behind those ahead.
They go the same way up to where the first one has used up its tokens.  What happens
there depends on the token that the others start with: one that ends expressions, or a
semicolon, with which nothing can begin.

The induction over the reading functions is done here once, for every relation between
such runs that the steps of the parser keep.
-/

namespace Siren

namespace Cursor

/-- The cursor with more tokens behind those ahead. -/
def extend (cursor : Cursor) (more : List Token) (stop : Position) : Cursor :=
  ⟨cursor.prev, cursor.rest ++ more, stop, cursor.parens⟩

theorem extend_cons
    (prev : Option Token) (token : Token) (rest : List Token) (stop : Position) (parens : Nat)
    (more : List Token) (stop' : Position) :
    extend ⟨prev, token :: rest, stop, parens⟩ more stop' =
      ⟨prev, token :: (rest ++ more), stop', parens⟩ := rfl

theorem current_extend
    {cursor : Cursor}
    (nonempty : cursor.rest ≠ [])
    (more : List Token)
    (stop : Position) :
    (cursor.extend more stop).current = cursor.current := by
  obtain ⟨prev, rest, stop', parens⟩ := cursor
  cases rest with
  | nil => exact absurd rfl nonempty
  | cons token rest => rfl

theorem kind_extend
    {cursor : Cursor}
    (nonempty : cursor.rest ≠ [])
    (more : List Token)
    (stop : Position) :
    (cursor.extend more stop).kind = cursor.kind := by
  rw [kind, current_extend nonempty, kind]

end Cursor

/-- The tokens start with one that goes on with no construct that could end
before it, if they are not empty. -/
def Closing (more : List Token) : Prop :=
  ∀ token ∈ more.head?,
    token.kind = .rightParen ∨ token.kind = .leftBrace ∨ token.kind = .rightBrace

theorem closing_nil : Closing [] := by
  simp [Closing]

/-- The tokens start with a semicolon. -/
def Separating (more : List Token) : Prop :=
  ∃ token rest, more = token :: rest ∧ token.kind = .semicolon

/-- No expression goes on with the first of the tokens, if they are not empty. -/
def Ending (more : List Token) : Prop :=
  ∀ token ∈ more.head?, token.kind = .semicolon ∨
    token.kind = .rightParen ∨ token.kind = .leftBrace ∨ token.kind = .rightBrace

theorem Closing.ending
    {more : List Token}
    (closing : Closing more) :
    Ending more :=
  fun token first => .inr (closing token first)

theorem Separating.ending
    {more : List Token}
    (separating : Separating more) :
    Ending more := by
  obtain ⟨semicolon, rest, rfl, kind⟩ := separating
  intro token first
  exact .inl (Option.some.inj first ▸ kind)

/-- Behind the last token a semicolon is ahead. -/
theorem Separating.kind_extend
    {more : List Token}
    {cursor : Cursor}
    (separating : Separating more)
    (none : cursor.rest = [])
    (stop : Position) :
    (cursor.extend more stop).kind = .semicolon := by
  obtain ⟨semicolon, rest, rfl, kind⟩ := separating
  rw [Cursor.kind, Cursor.current, Cursor.extend, none]
  exact kind

/-! ## Where constructs may end -/

namespace Parser

/-- No operator and no call starts with a token that ends an expression. -/
theorem continuations_of_ending
    {cursor : Cursor}
    (level : Level)
    (left : Expr)
    (ending : Ending cursor.rest) :
    (continuations level left cursor).run = .ok (left, cursor) := by
  obtain ⟨prev, rest, stop, parens⟩ := cursor
  cases rest with
  | nil => exact run_continuations_nil level left prev stop parens
  | cons token rest =>
      have none : Continuation.ofKind? token.kind = none := by
        rcases ending token rfl with kind | kind | kind | kind <;> rw [kind] <;> rfl
      rw [run_continuations_cons, none]

/-- A name before a token that ends expressions is an expression of its own. -/
theorem run_expr_identifier
    {prev : Option Token} {token : Token} {rest : List Token} {stop : Position} {parens : Nat}
    (kind : token.kind = .identifier)
    (ending : Ending rest)
    (level : Level) :
    (expr level ⟨prev, token :: rest, stop, parens⟩).run =
      .ok (.name token.pos token.lexeme, ⟨some token, rest, stop, parens⟩) := by
  rw [run_expr, run_operand_cons, kind]
  exact continuations_of_ending level _ ending

theorem run_statement_identifier
    {prev : Option Token} {token : Token} {rest : List Token} {stop : Position} {parens : Nat}
    (kind : token.kind = .identifier)
    (ending : Ending rest) :
    (statement ⟨prev, token :: rest, stop, parens⟩).run =
      .ok (.expr (.name token.pos token.lexeme), ⟨some token, rest, stop, parens⟩) := by
  rw [run_statement_cons, kind]
  cases rest with
  | nil => simp only [run_expr_identifier kind ending, Run.map_ok]
  | cons mark rest =>
      have other : mark.kind ≠ .assign := by
        rcases ending mark rfl with kind | kind | kind | kind <;> simp [kind]
      simp only [if_neg other, run_expr_identifier kind ending, Run.map_ok]

/-- No second arm starts with a token that ends an expression. -/
theorem elseArm_of_ending
    {cursor : Cursor}
    (ending : Ending cursor.rest) :
    (elseArm cursor).run = .ok (none, cursor) := by
  obtain ⟨prev, rest, stop, parens⟩ := cursor
  cases rest with
  | nil => exact run_elseArm_nil prev stop parens
  | cons token rest =>
      rw [run_elseArm_cons, if_neg]
      rcases ending token rfl with kind | kind | kind | kind <;> simp [kind]

/-- After a closing brace a statement ends before every closing token. -/
theorem endStatement_of_closing
    {cursor : Cursor}
    (closing : Kind)
    (follows : cursor.follows .rightBrace = true)
    (closes : Closing cursor.rest) :
    (endStatement closing cursor).run = .ok ((), cursor) := by
  have other : cursor.kind ≠ .semicolon := by
    obtain ⟨prev, rest, stop, parens⟩ := cursor
    cases rest with
    | nil => exact nofun
    | cons token rest =>
        intro kind
        have kind : token.kind = .semicolon := kind
        have closes := closes token rfl
        simp [kind] at closes
  rw [run_endStatement, if_neg other, if_pos (by simp [follows])]

/-- Skipping semicolons may go on among the tokens added. -/
theorem skipSemicolons_extend (more : List Token) (stop : Position) (cursor : Cursor) :
    (cursor.extend more stop).skipSemicolons =
      (cursor.skipSemicolons.extend more stop).skipSemicolons := by
  obtain ⟨prev, rest, stop', parens⟩ := cursor
  induction rest generalizing prev with
  | nil => rfl
  | cons token rest inductionHypothesis =>
      by_cases kind : token.kind = .semicolon
      · rw [Cursor.skipSemicolons_cons prev rest stop' parens kind, ← inductionHypothesis]
        exact Cursor.skipSemicolons_cons prev (rest ++ more) stop parens kind
      · have here : Cursor.skipSemicolons ⟨prev, token :: rest, stop', parens⟩ = _ :=
          Cursor.skipSemicolons_of_kind_ne kind
        rw [here]

/-- Skipping semicolons stops at a token that it had. -/
theorem skipSemicolons_extend_of_ne_nil
    (more : List Token)
    (stop : Position)
    {cursor : Cursor}
    (nonempty : cursor.skipSemicolons.rest ≠ []) :
    (cursor.extend more stop).skipSemicolons = cursor.skipSemicolons.extend more stop := by
  rw [skipSemicolons_extend]
  refine Cursor.skipSemicolons_of_kind_ne ?_
  rw [Cursor.kind_extend nonempty]
  exact cursor.kind_skipSemicolons_ne

end Parser

/-! ## Where constructs cannot begin -/

namespace Run

variable {α β : Type}

/-- The run fails where it starts. -/
def Stuck (cursor : Cursor) (run : Run α) : Prop :=
  ∃ error, run = .error (error, cursor)

namespace Stuck

variable {cursor : Cursor} {run : Run α}

theorem complain (cursor : Cursor) (complaint : Complaint) :
    Stuck cursor (Run.complain cursor complaint : Run α) :=
  ⟨_, rfl⟩

theorem map (stuck : Stuck cursor run) (change : α → β) : Stuck cursor (run.map change) := by
  obtain ⟨error, rfl⟩ := stuck
  exact ⟨error, rfl⟩

theorem andThen (stuck : Stuck cursor run) (second : α → Cursor → Run β) :
    Stuck cursor (run.andThen second) := by
  obtain ⟨error, rfl⟩ := stuck
  exact ⟨error, rfl⟩

end Stuck
end Run

/-- Another token than the one wanted is not read. -/
theorem Cursor.stuck_expect
    {cursor : Cursor}
    {wanted : Kind}
    (other : cursor.kind ≠ wanted) :
    Run.Stuck cursor (cursor.expect wanted).run := by
  obtain ⟨prev, rest, stop, parens⟩ := cursor
  cases rest with
  | nil => exact .complain _ _
  | cons token rest =>
      rw [run_expect_cons, if_neg (by exact other)]
      exact .complain _ _

namespace Parser

section Semicolon

variable {cursor : Cursor} (semicolon : cursor.kind = .semicolon)

include semicolon

theorem stuck_param (seen : List Text) : Run.Stuck cursor (param seen cursor).run := by
  rw [run_param]
  split
  · exact .complain _ _
  · exact (Cursor.stuck_expect (by simp [semicolon])).andThen _

theorem stuck_moreParams (seen : List Text) : Run.Stuck cursor (moreParams seen cursor).run := by
  rw [run_moreParams, if_neg (by simp [semicolon])]
  exact (Cursor.stuck_expect (by simp [semicolon])).andThen _

theorem stuck_params : Run.Stuck cursor (params cursor).run := by
  rw [run_params, if_neg (by simp [semicolon])]
  exact stuck_param semicolon []

theorem stuck_operand : Run.Stuck cursor (operand cursor).run := by
  obtain ⟨prev, rest, stop, parens⟩ := cursor
  cases rest with
  | nil =>
      rw [run_operand_nil]
      exact .complain _ _
  | cons token rest =>
      have kind : token.kind = .semicolon := semicolon
      rw [run_operand_cons, kind]
      exact .complain _ _

theorem stuck_expr (level : Level) : Run.Stuck cursor (expr level cursor).run := by
  rw [run_expr]
  exact (stuck_operand semicolon).andThen _

theorem stuck_args : Run.Stuck cursor (args cursor).run := by
  rw [run_args, if_neg (by simp [semicolon]), run_arg]
  exact (stuck_expr semicolon .lowest).andThen _

theorem stuck_moreArgs : Run.Stuck cursor (moreArgs cursor).run := by
  rw [run_moreArgs, if_neg (by simp [semicolon]), if_neg (by simp [semicolon])]
  exact .complain _ _

theorem stuck_block : Run.Stuck cursor (block cursor).run := by
  rw [run_block]
  exact (Cursor.stuck_expect (by simp [semicolon])).andThen _

theorem stuck_statement : Run.Stuck cursor (statement cursor).run := by
  obtain ⟨prev, rest, stop, parens⟩ := cursor
  have whole := stuck_expr semicolon .lowest
  cases rest with
  | nil =>
      rw [run_statement_nil]
      exact whole.map _
  | cons token rest =>
      have kind : token.kind = .semicolon := semicolon
      rw [run_statement_cons, kind]
      exact whole.map _

end Semicolon

/-- Statements are not closed by the end of the input. -/
theorem stuck_statements
    {cursor : Cursor}
    (ended : cursor.skipSemicolons.rest = []) :
    Run.Stuck cursor.skipSemicolons (statements cursor).run := by
  have kind : cursor.skipSemicolons.kind = .endOfInput := by
    rw [Cursor.kind, Cursor.current, ended]
    rfl
  rw [run_statements, if_pos (by simp [kind])]
  exact (Cursor.stuck_expect (by simp [kind])).map _

/-- Nor are they behind one of them. -/
theorem stuck_moreStatements
    {cursor : Cursor}
    (first : Stmt)
    (ended : cursor.rest = []) :
    Run.Stuck cursor ((endStatement .rightBrace cursor).run.andThen fun _ next =>
      (statements next).run.map (first :: ·)) := by
  have kind : cursor.kind = .endOfInput := by
    rw [Cursor.kind, Cursor.current, ended]
    rfl
  have skipped : cursor.skipSemicolons = cursor :=
    Cursor.skipSemicolons_of_kind_ne (by simp [kind])
  rw [run_endStatement, if_neg (by simp [kind]), if_pos kind]
  split
  · have unclosed := stuck_statements (skipped.symm ▸ ended)
    rw [skipped] at unclosed
    exact unclosed.map _
  · exact .andThen (.complain _ _) _

end Parser

/-! ## Relations between runs -/

/-- A relation between a run, seen from the cursor where it starts, and the run with more
tokens ahead, that the steps of the parser keep.  Inside braces it may be another one. -/
structure Run.Extension (more : List Token) (stop : Position)
    (holds : {α : Type} → Bool → Cursor → Run α → Run α → Prop) : Prop where
  /-- A value is given without moving. -/
  ok : ∀ {α : Type} {inside : Bool} (value : α) (cursor : Cursor),
    holds inside cursor (.ok (value, cursor)) (.ok (value, cursor.extend more stop))
  /-- A complaint is about a token that is there. -/
  complain : ∀ {α : Type} {inside : Bool} {cursor : Cursor}, cursor.rest ≠ [] →
    ∀ complaint, holds inside cursor (Run.complain cursor complaint : Run α)
      (Run.complain (cursor.extend more stop) complaint)
  /-- A construct ends with the tokens. -/
  ended : ∀ {α : Type} {inside : Bool} {value : α} {cursor : Cursor} {run : Run α},
    cursor.rest = [] → (Ending more → run = .ok (value, cursor.extend more stop)) →
    holds inside cursor (.ok (value, cursor)) run
  /-- No token is ahead where one is needed. -/
  stuck : ∀ {α : Type} {inside : Bool} {cursor : Cursor} (parsed : Parsed 1 α cursor)
    {run : Run α}, cursor.rest = [] →
    (Separating more → Run.Stuck (cursor.extend more stop) run) →
    holds inside cursor parsed.run run
  /-- No token is ahead where a brace has to be closed. -/
  unclosed : ∀ {α : Type} {cursor : Cursor} {run run' : Run α}, cursor.rest = [] →
    Run.Stuck cursor run → holds true cursor run run'
  /-- The value is of no account. -/
  map : ∀ {α β : Type} {inside : Bool} {start : Cursor} {run run' : Run α} (change : α → β),
    holds inside start run run' → holds inside start (run.map change) (run'.map change)
  /-- A token is taken before a run. -/
  cons : ∀ {α : Type} {inside : Bool} {prev : Option Token} {token : Token} {rest : List Token}
    {stop' : Position} {parens : Nat} {run run' : Run α},
    holds inside ⟨some token, rest, stop', parens⟩ run run' →
    holds inside ⟨prev, token :: rest, stop', parens⟩ run run'
  /-- One run is read behind another. -/
  andThen : ∀ {α β : Type} {inside : Bool} {start : Cursor} {first first' : Run α}
    {second second' : α → Cursor → Run β},
    holds inside start first first' →
    (∀ value next, first = .ok (value, next) →
      holds inside next (second value next) (second' value (next.extend more stop))) →
    holds inside start (first.andThen second) (first'.andThen second')
  /-- A parenthesis is open around a run. -/
  leave : ∀ {α : Type} {inside : Bool} {prev : Option Token} {rest : List Token}
    {stop' : Position} {parens : Nat} {run run' : Run α},
    holds inside ⟨prev, rest, stop', parens + 1⟩ run run' →
    holds inside ⟨prev, rest, stop', parens⟩ (run.mapCursor Cursor.leave)
      (run'.mapCursor Cursor.leave)
  /-- A brace is open around a run, inside which parentheses are counted anew. -/
  braces : ∀ {α : Type} {inside : Bool} {prev : Option Token} {token : Token}
    {rest : List Token} {stop' : Position} {parens : Nat} {run run' : Run α},
    token.kind = .leftBrace → holds true ⟨some token, rest, stop', 0⟩ run run' →
    holds inside ⟨prev, token :: rest, stop', parens⟩
      (run.mapCursor (Cursor.withParens · parens)) (run'.mapCursor (Cursor.withParens · parens))

namespace Run.Extension

open Siren.Parser

variable {more : List Token} {stop : Position}
  {holds : {α : Type} → Bool → Cursor → Run α → Run α → Prop}

/-! ## Tokens and parameters -/

theorem expect
    (extension : Extension more stop holds)
    (inside : Bool)
    (cursor : Cursor)
    {wanted : Kind}
    (other : wanted ≠ .semicolon) :
    holds inside cursor (cursor.expect wanted).run
      ((cursor.extend more stop).expect wanted).run := by
  obtain ⟨prev, rest, stop', parens⟩ := cursor
  cases rest with
  | nil =>
      refine extension.stuck _ rfl fun separating => Cursor.stuck_expect ?_
      rw [separating.kind_extend rfl]
      exact other.symm
  | cons token rest =>
      rw [Cursor.extend_cons, Cursor.run_expect_cons, Cursor.run_expect_cons]
      split
      · exact extension.cons (extension.ok _ _)
      · exact extension.complain (List.cons_ne_nil _ _) _

/-- Semicolons are taken one by one. -/
theorem skipSemicolons
    (extension : Extension more stop holds)
    {α : Type}
    {inside : Bool}
    {cursor : Cursor}
    {run run' : Run α}
    (behind : holds inside cursor.skipSemicolons run run') :
    holds inside cursor run run' := by
  obtain ⟨prev, rest, stop', parens⟩ := cursor
  induction rest generalizing prev with
  | nil => exact behind
  | cons token rest inductionHypothesis =>
      by_cases kind : token.kind = .semicolon
      · rw [Cursor.skipSemicolons_cons prev rest stop' parens kind] at behind
        exact extension.cons (inductionHypothesis (some token) behind)
      · rwa [Cursor.skipSemicolons_of_kind_ne (by exact kind)] at behind

mutual

theorem param
    (extension : Extension more stop holds)
    (inside : Bool)
    (seen : List Text)
    (cursor : Cursor) :
    holds inside cursor (Parser.param seen cursor).run
      (Parser.param seen (cursor.extend more stop)).run := by
  by_cases none : cursor.rest = []
  · exact extension.stuck _ none fun separating => stuck_param (separating.kind_extend none stop) _
  · rw [run_param, run_param, Cursor.current_extend none]
    split
    · exact extension.complain none _
    · refine extension.andThen (extension.expect inside cursor (by decide)) ?_
      intro token next reads
      have shorter := Parsed.left_of_run_eq_ok reads
      exact extension.map _ (moreParams extension inside (token.lexeme :: seen) next)
termination_by cursor.left

theorem moreParams
    (extension : Extension more stop holds)
    (inside : Bool)
    (seen : List Text)
    (cursor : Cursor) :
    holds inside cursor (Parser.moreParams seen cursor).run
      (Parser.moreParams seen (cursor.extend more stop)).run := by
  by_cases none : cursor.rest = []
  · exact extension.stuck _ none fun separating =>
      stuck_moreParams (separating.kind_extend none stop) _
  · rw [run_moreParams, run_moreParams, Cursor.kind_extend none]
    split
    · exact extension.map _ (extension.expect inside cursor (by decide))
    · refine extension.andThen (extension.expect inside cursor (by decide)) ?_
      intro comma next reads
      have shorter := Parsed.left_of_run_eq_ok reads
      exact param extension inside seen next
termination_by cursor.left

end

theorem params
    (extension : Extension more stop holds)
    (inside : Bool)
    (cursor : Cursor) :
    holds inside cursor (Parser.params cursor).run
      (Parser.params (cursor.extend more stop)).run := by
  by_cases none : cursor.rest = []
  · exact extension.stuck _ none fun separating => stuck_params (separating.kind_extend none stop)
  · rw [run_params, run_params, Cursor.kind_extend none]
    split
    · exact extension.map _ (extension.expect inside cursor (by decide))
    · exact extension.param inside [] cursor

/-- A statement ends the same way before a token that is there. -/
theorem endStatement
    (extension : Extension more stop holds)
    (inside : Bool)
    (closing : Kind)
    {cursor : Cursor}
    (nonempty : cursor.rest ≠ []) :
    holds inside cursor (Parser.endStatement closing cursor).run
      (Parser.endStatement closing (cursor.extend more stop)).run := by
  have follows : (cursor.extend more stop).follows .rightBrace = cursor.follows .rightBrace := rfl
  rw [run_endStatement, run_endStatement, Cursor.kind_extend nonempty,
    Cursor.current_extend nonempty, follows]
  split
  · rename_i semicolon
    obtain ⟨prev, rest, stop', parens⟩ := cursor
    cases rest with
    | nil => exact absurd rfl nonempty
    | cons token rest =>
        rw [Cursor.extend_cons, Cursor.run_expect_cons, Cursor.run_expect_cons,
          if_pos (by exact semicolon), if_pos (by exact semicolon)]
        exact extension.map _ (extension.cons (extension.ok _ _))
  · split
    · exact extension.ok _ _
    · split
      · exact extension.complain nonempty _
      · exact extension.complain nonempty _

/-! ## Expressions, blocks and statements -/

mutual

theorem expr
    (extension : Extension more stop holds)
    (inside : Bool)
    (level : Level)
    (cursor : Cursor) :
    holds inside cursor (Parser.expr level cursor).run
      (Parser.expr level (cursor.extend more stop)).run := by
  rw [run_expr, run_expr]
  refine extension.andThen (operand extension inside cursor) ?_
  intro left next reads
  have shorter := Parsed.left_of_run_eq_ok reads
  exact continuations extension inside level left next
termination_by 6 * cursor.left + 3

theorem continuations
    (extension : Extension more stop holds)
    (inside : Bool)
    (level : Level)
    (left : Expr)
    (cursor : Cursor) :
    holds inside cursor (Parser.continuations level left cursor).run
      (Parser.continuations level left (cursor.extend more stop)).run := by
  match cursor with
  | ⟨prev, [], stop', parens⟩ =>
      rw [run_continuations_nil]
      exact extension.ended rfl fun ending => continuations_of_ending level left ending
  | ⟨prev, token :: rest, stop', parens⟩ =>
      have shorter := Cursor.left_next prev token rest stop' parens
      have line : Cursor.endsLine ⟨prev, token :: (rest ++ more), stop, parens⟩ =
          Cursor.endsLine ⟨prev, token :: rest, stop', parens⟩ := rfl
      rw [Cursor.extend_cons, run_continuations_cons, run_continuations_cons, line]
      cases Continuation.ofKind? token.kind with
      | none => exact extension.ok _ _
      | some continuation =>
          dsimp only
          split
          · exact extension.ok _ _
          · cases continuation with
            | arguments =>
                have entered : Cursor.left ⟨some token, rest, stop', parens + 1⟩ + 1 ≤
                    Cursor.left ⟨prev, token :: rest, stop', parens⟩ := shorter
                have listed := args extension inside ⟨some token, rest, stop', parens + 1⟩
                refine extension.cons (extension.andThen (extension.leave listed) ?_)
                intro args after leaves
                obtain ⟨last, reads, rfl⟩ := Run.mapCursor_eq_ok.mp leaves
                have further := Parsed.left_of_run_eq_ok reads
                rw [← last.left_leave] at further
                exact continuations extension inside level (.call left args) last.leave
            | operator op level' =>
                have right := expr extension inside level' ⟨some token, rest, stop', parens⟩
                refine extension.cons (extension.andThen right ?_)
                intro right after reads
                have further := Parsed.left_of_run_eq_ok reads
                exact continuations extension inside level (.binary left op right) after
termination_by 6 * cursor.left

theorem operand
    (extension : Extension more stop holds)
    (inside : Bool)
    (cursor : Cursor) :
    holds inside cursor (Parser.operand cursor).run
      (Parser.operand (cursor.extend more stop)).run := by
  match cursor with
  | ⟨prev, [], stop', parens⟩ =>
      exact extension.stuck _ rfl fun separating => stuck_operand (separating.kind_extend rfl stop)
  | ⟨prev, token :: rest, stop', parens⟩ =>
      have shorter := Cursor.left_next prev token rest stop' parens
      have complained (complaint : Complaint) :
          holds inside ⟨prev, token :: rest, stop', parens⟩
            (Run.complain ⟨prev, token :: rest, stop', parens⟩ complaint : Run Expr)
            (Run.complain ⟨prev, token :: (rest ++ more), stop, parens⟩ complaint) :=
        extension.complain (List.cons_ne_nil _ _) complaint
      rw [Cursor.extend_cons, run_operand_cons, run_operand_cons]
      cases token.kind
      case integer =>
        dsimp only
        split
        · exact extension.cons (extension.ok _ _)
        · exact complained _
      case trueWord => exact extension.cons (extension.ok _ _)
      case falseWord => exact extension.cons (extension.ok _ _)
      case identifier => exact extension.cons (extension.ok _ _)
      case minus =>
        have signed := expr extension inside .sign ⟨some token, rest, stop', parens⟩
        exact extension.cons (extension.map _ signed)
      case bang =>
        have signed := expr extension inside .sign ⟨some token, rest, stop', parens⟩
        exact extension.cons (extension.map _ signed)
      case leftParen =>
        have entered : Cursor.left ⟨some token, rest, stop', parens + 1⟩ + 1 ≤
            Cursor.left ⟨prev, token :: rest, stop', parens⟩ := shorter
        have grouped := expr extension inside .lowest ⟨some token, rest, stop', parens + 1⟩
        refine extension.cons (extension.leave (extension.andThen grouped ?_))
        intro value after _
        exact extension.map _ (extension.expect inside after (by decide))
      case fnWord =>
        exact extension.cons
          (function extension inside token.pos ⟨some token, rest, stop', parens⟩)
      case ifWord =>
        exact extension.cons
          (branch extension inside token.pos ⟨some token, rest, stop', parens⟩)
      all_goals exact complained _
termination_by 6 * cursor.left + 2

theorem function
    (extension : Extension more stop holds)
    (inside : Bool)
    (pos : Position)
    (cursor : Cursor) :
    holds inside cursor (Parser.function pos cursor).run
      (Parser.function pos (cursor.extend more stop)).run := by
  rw [run_function, run_function]
  refine extension.andThen (extension.expect inside cursor (by decide)) ?_
  intro opening between opens
  refine extension.andThen (extension.params inside between) ?_
  intro params behind listed
  have shorter := Parsed.left_of_run_eq_ok opens
  have further := Parsed.left_of_run_eq_ok listed
  exact extension.map _ (block extension inside behind)
termination_by 6 * cursor.left

theorem branch
    (extension : Extension more stop holds)
    (inside : Bool)
    (pos : Position)
    (cursor : Cursor) :
    holds inside cursor (Parser.branch pos cursor).run
      (Parser.branch pos (cursor.extend more stop)).run := by
  rw [run_branch, run_branch]
  refine extension.andThen (expr extension inside .lowest cursor) ?_
  intro condition between tests
  have shorter := Parsed.left_of_run_eq_ok tests
  refine extension.andThen (block extension inside between) ?_
  intro thenArm behind reads
  have further := Parsed.left_of_run_eq_ok reads
  exact extension.map _ (elseArm extension inside behind)
termination_by 6 * cursor.left + 4

theorem elseArm
    (extension : Extension more stop holds)
    (inside : Bool)
    (cursor : Cursor) :
    holds inside cursor (Parser.elseArm cursor).run
      (Parser.elseArm (cursor.extend more stop)).run := by
  match cursor with
  | ⟨prev, [], stop', parens⟩ =>
      rw [run_elseArm_nil]
      exact extension.ended rfl fun ending => elseArm_of_ending ending
  | ⟨prev, [token], stop', parens⟩ =>
      rw [Cursor.extend_cons, run_elseArm_cons, run_elseArm_cons]
      split
      · rw [← Parsed.run_map]
        refine extension.cons (extension.stuck _ rfl fun separating => ?_)
        -- Behind the word comes the semicolon, which starts neither a choice nor a block.
        obtain ⟨semicolon, rest, rfl, kind⟩ := separating
        simp only [List.nil_append, kind, reduceCtorEq, if_false]
        exact (stuck_block (by exact kind)).map _
      · exact extension.ok _ _
  | ⟨prev, token :: token' :: rest', stop', parens⟩ =>
      have shorter := Cursor.left_next prev token (token' :: rest') stop' parens
      have further := Cursor.left_next (some token) token' rest' stop' parens
      rw [Cursor.extend_cons, run_elseArm_cons, run_elseArm_cons]
      simp only [List.cons_append]
      split
      · split
        · have nested := branch extension inside token'.pos ⟨some token', rest', stop', parens⟩
          exact extension.cons (extension.cons (extension.map _ nested))
        · have body := block extension inside ⟨some token, token' :: rest', stop', parens⟩
          exact extension.cons (extension.map _ body)
      · exact extension.ok _ _
termination_by 6 * cursor.left

theorem args
    (extension : Extension more stop holds)
    (inside : Bool)
    (cursor : Cursor) :
    holds inside cursor (Parser.args cursor).run
      (Parser.args (cursor.extend more stop)).run := by
  by_cases none : cursor.rest = []
  · exact extension.stuck _ none fun separating => stuck_args (separating.kind_extend none stop)
  · rw [run_args, run_args, Cursor.kind_extend none]
    split
    · exact extension.map _ (extension.expect inside cursor (by decide))
    · exact arg extension inside cursor
termination_by 6 * cursor.left + 5

theorem arg
    (extension : Extension more stop holds)
    (inside : Bool)
    (cursor : Cursor) :
    holds inside cursor (Parser.arg cursor).run
      (Parser.arg (cursor.extend more stop)).run := by
  rw [run_arg, run_arg]
  refine extension.andThen (expr extension inside .lowest cursor) ?_
  intro first next reads
  have shorter := Parsed.left_of_run_eq_ok reads
  exact extension.map _ (moreArgs extension inside next)
termination_by 6 * cursor.left + 4

theorem moreArgs
    (extension : Extension more stop holds)
    (inside : Bool)
    (cursor : Cursor) :
    holds inside cursor (Parser.moreArgs cursor).run
      (Parser.moreArgs (cursor.extend more stop)).run := by
  by_cases none : cursor.rest = []
  · exact extension.stuck _ none fun separating =>
      stuck_moreArgs (separating.kind_extend none stop)
  · rw [run_moreArgs, run_moreArgs, Cursor.kind_extend none, Cursor.current_extend none]
    split
    · exact extension.map _ (extension.expect inside cursor (by decide))
    · split
      · refine extension.andThen (extension.expect inside cursor (by decide)) ?_
        intro comma next reads
        have shorter := Parsed.left_of_run_eq_ok reads
        exact arg extension inside next
      · exact extension.complain none _
termination_by 6 * cursor.left

theorem block
    (extension : Extension more stop holds)
    (inside : Bool)
    (cursor : Cursor) :
    holds inside cursor (Parser.block cursor).run
      (Parser.block (cursor.extend more stop)).run := by
  match cursor with
  | ⟨prev, [], stop', parens⟩ =>
      exact extension.stuck _ rfl fun separating => stuck_block (separating.kind_extend rfl stop)
  | ⟨prev, token :: rest, stop', parens⟩ =>
      have shorter : Cursor.left ⟨some token, rest, stop', 0⟩ + 1 ≤
          Cursor.left ⟨prev, token :: rest, stop', parens⟩ := by simp [Cursor.left]
      have body := statements extension ⟨some token, rest, stop', 0⟩
      rw [Cursor.extend_cons, run_block, run_block, Cursor.run_expect_cons,
        Cursor.run_expect_cons]
      split
      · rename_i opens
        exact extension.braces opens body
      · exact extension.complain (List.cons_ne_nil _ _) _
termination_by 6 * cursor.left

/-- Statements are read inside braces only. -/
theorem statements
    (extension : Extension more stop holds)
    (cursor : Cursor) :
    holds true cursor (Parser.statements cursor).run
      (Parser.statements (cursor.extend more stop)).run := by
  have bound := cursor.left_skipSemicolons_le
  refine extension.skipSemicolons ?_
  by_cases none : cursor.skipSemicolons.rest = []
  · exact extension.unclosed none (stuck_statements none)
  · rw [run_statements, run_statements, skipSemicolons_extend_of_ne_nil more stop none,
      Cursor.kind_extend none]
    split
    · exact extension.map _ (extension.expect true _ (by decide))
    · refine extension.andThen (statement extension true cursor.skipSemicolons) ?_
      intro first between reads
      have shorter := Parsed.left_of_run_eq_ok reads
      by_cases last : between.rest = []
      · exact extension.unclosed last (stuck_moreStatements first last)
      · refine extension.andThen (extension.endStatement true .rightBrace last) ?_
        intro _ next ends
        have further := Parsed.left_of_run_eq_ok ends
        exact extension.map _ (statements extension next)
termination_by 6 * cursor.left + 5

theorem statement
    (extension : Extension more stop holds)
    (inside : Bool)
    (cursor : Cursor) :
    holds inside cursor (Parser.statement cursor).run
      (Parser.statement (cursor.extend more stop)).run := by
  match cursor with
  | ⟨prev, [], stop', parens⟩ =>
      exact extension.stuck _ rfl fun separating =>
        stuck_statement (separating.kind_extend rfl stop)
  | ⟨prev, token :: rest, stop', parens⟩ =>
      have shorter := Cursor.left_next prev token rest stop' parens
      have whole := expr extension inside .lowest ⟨prev, token :: rest, stop', parens⟩
      by_cases alone : token.kind = .identifier ∧ rest = []
      · -- The token behind a name decides whether it is a statement of its own.
        obtain ⟨kind, rfl⟩ := alone
        rw [run_statement_identifier kind closing_nil.ending]
        exact extension.cons (extension.ended rfl fun ending =>
          run_statement_identifier kind ending)
      rw [Cursor.extend_cons] at whole ⊢
      rw [run_statement_cons, run_statement_cons]
      cases kind : token.kind
      case returnWord =>
        have given := expr extension inside .lowest ⟨some token, rest, stop', parens⟩
        exact extension.cons (extension.map _ given)
      case letWord =>
        refine extension.cons
          (extension.andThen (extension.expect inside _ (by decide)) ?_)
        intro name between names
        refine extension.andThen (extension.expect inside between (by decide)) ?_
        intro mark behind marks
        have further := Parsed.left_of_run_eq_ok names
        have beyond := Parsed.left_of_run_eq_ok marks
        exact extension.map _ (expr extension inside .lowest behind)
      case identifier =>
        match equal : rest with
        | [] => exact absurd ⟨kind, rfl⟩ alone
        | mark :: rest' =>
            have further : Cursor.left ⟨some mark, rest', stop', parens⟩ + 2 ≤
                Cursor.left ⟨prev, token :: rest, stop', parens⟩ := by
              simp [Cursor.left, equal]
            simp only [List.cons_append]
            split
            · have given := expr extension inside .lowest ⟨some mark, rest', stop', parens⟩
              exact extension.cons (extension.cons (extension.map _ given))
            · exact extension.map _ whole
      case ifWord =>
        have choice := branch extension inside token.pos ⟨some token, rest, stop', parens⟩
        exact extension.cons (extension.map _ choice)
      all_goals exact extension.map _ whole
termination_by 6 * cursor.left + 4

end

end Run.Extension
end Siren
