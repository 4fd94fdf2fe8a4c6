import Siren.Proofs.ParserRuns

/-!
# Invariants of the parser

The parser is put together from few steps: it gives a value or complains where it
stands, takes a token that is a lexeme of the language, reads on where a run has ended,
and counts the parentheses that are open.  A property of runs that these steps keep
holds of every reading function.  The induction over the reading functions is done here,
once for all such properties.
-/

namespace Siren

/-- A property of runs, each seen from the cursor where it starts, that the steps of the
parser keep. -/
structure Run.Invariant (holds : {α : Type} → Cursor → Run α → Prop) : Prop where
  /-- A value is given without moving. -/
  ok : ∀ {α : Type} (value : α) (cursor : Cursor), holds cursor (.ok (value, cursor))
  /-- A complaint is about the next token. -/
  complain : ∀ {α : Type} (cursor : Cursor) (complaint : Complaint),
    holds cursor (Run.complain cursor complaint : Run α)
  /-- The value is of no account. -/
  map : ∀ {α β : Type} {start : Cursor} {run : Run α} (change : α → β),
    holds start run → holds start (run.map change)
  /-- A token is taken before a run, but never an illegal one. -/
  cons : ∀ {α : Type} {prev : Option Token} {token : Token} {rest : List Token}
    {stop : Position} {parens : Nat} {run : Run α}, token.kind ≠ .illegal →
    holds ⟨some token, rest, stop, parens⟩ run → holds ⟨prev, token :: rest, stop, parens⟩ run
  /-- One run is read behind another. -/
  andThen : ∀ {α β : Type} {start : Cursor} {first : Run α} {second : α → Cursor → Run β},
    holds start first →
    (∀ value next, first = .ok (value, next) → holds next (second value next)) →
    holds start (first.andThen second)
  /-- A parenthesis is open around a run. -/
  leave : ∀ {α : Type} {prev : Option Token} {rest : List Token} {stop : Position}
    {parens : Nat} {run : Run α},
    holds ⟨prev, rest, stop, parens + 1⟩ run →
    holds ⟨prev, rest, stop, parens⟩ (run.mapCursor Cursor.leave)
  /-- Inside braces parentheses are counted anew. -/
  withParens : ∀ {α : Type} {start : Cursor} {run : Run α},
    holds (start.withParens 0) run →
    holds start (run.mapCursor (Cursor.withParens · start.parens))

namespace Run.Invariant

open Siren.Parser

variable {holds : {α : Type} → Cursor → Run α → Prop}

/-! ## Tokens and parameters -/

theorem expect
    (invariant : Invariant holds)
    (cursor : Cursor)
    {wanted : Kind}
    (legal : wanted ≠ .illegal) :
    holds cursor (cursor.expect wanted).run := by
  obtain ⟨prev, rest, stop, parens⟩ := cursor
  cases rest with
  | nil => exact invariant.complain _ _
  | cons token rest =>
      rw [Cursor.run_expect_cons]
      split
      · rename_i found
        exact invariant.cons (found ▸ legal) (invariant.ok _ _)
      · exact invariant.complain _ _

/-- Semicolons are taken one by one. -/
theorem skipSemicolons
    (invariant : Invariant holds)
    {α : Type}
    {cursor : Cursor}
    {run : Run α}
    (inside : holds cursor.skipSemicolons run) :
    holds cursor run := by
  obtain ⟨prev, rest, stop, parens⟩ := cursor
  induction rest generalizing prev with
  | nil => exact inside
  | cons token rest inductionHypothesis =>
      by_cases kind : token.kind = .semicolon
      · rw [Cursor.skipSemicolons_cons prev rest stop parens kind] at inside
        have legal : token.kind ≠ .illegal := by
          rw [kind]
          decide
        exact invariant.cons legal (inductionHypothesis (some token) inside)
      · rwa [Cursor.skipSemicolons_of_kind_ne (by exact kind)] at inside

mutual

theorem param (invariant : Invariant holds) (seen : List Text) (cursor : Cursor) :
    holds cursor (Parser.param seen cursor).run := by
  rw [run_param]
  split
  · exact invariant.complain _ _
  · refine invariant.andThen (invariant.expect cursor (by decide)) ?_
    intro token next reads
    have shorter := Parsed.left_of_run_eq_ok reads
    exact invariant.map _ (moreParams invariant (token.lexeme :: seen) next)
termination_by cursor.left

theorem moreParams (invariant : Invariant holds) (seen : List Text) (cursor : Cursor) :
    holds cursor (Parser.moreParams seen cursor).run := by
  rw [run_moreParams]
  split
  · exact invariant.map _ (invariant.expect cursor (by decide))
  · refine invariant.andThen (invariant.expect cursor (by decide)) ?_
    intro comma next reads
    have shorter := Parsed.left_of_run_eq_ok reads
    exact param invariant seen next
termination_by cursor.left

end

theorem params (invariant : Invariant holds) (cursor : Cursor) :
    holds cursor (Parser.params cursor).run := by
  rw [run_params]
  split
  · exact invariant.map _ (invariant.expect cursor (by decide))
  · exact invariant.param [] cursor

theorem endStatement (invariant : Invariant holds) (closing : Kind) (cursor : Cursor) :
    holds cursor (Parser.endStatement closing cursor).run := by
  rw [run_endStatement]
  split
  · exact invariant.map _ (invariant.expect cursor (by decide))
  · split
    · exact invariant.ok _ _
    · split
      · exact invariant.complain _ _
      · exact invariant.complain _ _

/-! ## Expressions, blocks and statements -/

mutual

theorem expr (invariant : Invariant holds) (level : Level) (cursor : Cursor) :
    holds cursor (Parser.expr level cursor).run := by
  rw [run_expr]
  refine invariant.andThen (operand invariant cursor) ?_
  intro left next reads
  have shorter := Parsed.left_of_run_eq_ok reads
  exact continuations invariant level left next
termination_by 6 * cursor.left + 3

theorem continuations
    (invariant : Invariant holds)
    (level : Level)
    (left : Expr)
    (cursor : Cursor) :
    holds cursor (Parser.continuations level left cursor).run := by
  match cursor with
  | ⟨prev, [], stop, parens⟩ =>
      rw [run_continuations_nil]
      exact invariant.ok _ _
  | ⟨prev, token :: rest, stop, parens⟩ =>
      have shorter := Cursor.left_next prev token rest stop parens
      rw [run_continuations_cons]
      cases goesOn : Continuation.ofKind? token.kind with
      | none => exact invariant.ok _ _
      | some continuation =>
          have legal : token.kind ≠ .illegal := by
            intro illegal
            rw [illegal] at goesOn
            cases goesOn
          dsimp only
          split
          · exact invariant.ok _ _
          · cases continuation with
            | arguments =>
                have entered : Cursor.left ⟨some token, rest, stop, parens + 1⟩ + 1 ≤
                    Cursor.left ⟨prev, token :: rest, stop, parens⟩ := shorter
                have inside := args invariant ⟨some token, rest, stop, parens + 1⟩
                refine invariant.cons legal (invariant.andThen (invariant.leave inside) ?_)
                intro args after leaves
                obtain ⟨last, reads, rfl⟩ := Run.mapCursor_eq_ok.mp leaves
                have further := Parsed.left_of_run_eq_ok reads
                rw [← last.left_leave] at further
                exact continuations invariant level (.call left args) last.leave
            | operator op level' =>
                have inside := expr invariant level' ⟨some token, rest, stop, parens⟩
                refine invariant.cons legal (invariant.andThen inside ?_)
                intro right after reads
                have further := Parsed.left_of_run_eq_ok reads
                exact continuations invariant level (.binary left op right) after
termination_by 6 * cursor.left

theorem operand (invariant : Invariant holds) (cursor : Cursor) :
    holds cursor (Parser.operand cursor).run := by
  match cursor with
  | ⟨prev, [], stop, parens⟩ =>
      rw [run_operand_nil]
      exact invariant.complain _ _
  | ⟨prev, token :: rest, stop, parens⟩ =>
      have shorter := Cursor.left_next prev token rest stop parens
      rw [run_operand_cons]
      rcases Decidable.em (token.kind = .illegal) with illegal | legal
      · rw [illegal]
        exact invariant.complain _ _
      cases token.kind
      case integer =>
        dsimp only
        split
        · exact invariant.cons legal (invariant.ok _ _)
        · exact invariant.complain _ _
      case trueWord => exact invariant.cons legal (invariant.ok _ _)
      case falseWord => exact invariant.cons legal (invariant.ok _ _)
      case identifier => exact invariant.cons legal (invariant.ok _ _)
      case minus =>
        have inside := expr invariant .sign ⟨some token, rest, stop, parens⟩
        exact invariant.cons legal (invariant.map _ inside)
      case bang =>
        have inside := expr invariant .sign ⟨some token, rest, stop, parens⟩
        exact invariant.cons legal (invariant.map _ inside)
      case leftParen =>
        have entered : Cursor.left ⟨some token, rest, stop, parens + 1⟩ + 1 ≤
            Cursor.left ⟨prev, token :: rest, stop, parens⟩ := shorter
        have inside := expr invariant .lowest ⟨some token, rest, stop, parens + 1⟩
        refine invariant.cons legal (invariant.leave (invariant.andThen inside ?_))
        intro value after _
        exact invariant.map _ (invariant.expect after (by decide))
      case fnWord =>
        exact invariant.cons legal (function invariant token.pos ⟨some token, rest, stop, parens⟩)
      case ifWord =>
        exact invariant.cons legal (branch invariant token.pos ⟨some token, rest, stop, parens⟩)
      all_goals exact invariant.complain _ _
termination_by 6 * cursor.left + 2

theorem function (invariant : Invariant holds) (pos : Position) (cursor : Cursor) :
    holds cursor (Parser.function pos cursor).run := by
  rw [run_function]
  refine invariant.andThen (invariant.expect cursor (by decide)) ?_
  intro opening inside opens
  refine invariant.andThen (invariant.params inside) ?_
  intro params behind listed
  have shorter := Parsed.left_of_run_eq_ok opens
  have further := Parsed.left_of_run_eq_ok listed
  exact invariant.map _ (block invariant behind)
termination_by 6 * cursor.left

theorem branch (invariant : Invariant holds) (pos : Position) (cursor : Cursor) :
    holds cursor (Parser.branch pos cursor).run := by
  rw [run_branch]
  refine invariant.andThen (expr invariant .lowest cursor) ?_
  intro condition between tests
  have shorter := Parsed.left_of_run_eq_ok tests
  refine invariant.andThen (block invariant between) ?_
  intro thenArm behind reads
  have further := Parsed.left_of_run_eq_ok reads
  exact invariant.map _ (elseArm invariant behind)
termination_by 6 * cursor.left + 4

theorem elseArm (invariant : Invariant holds) (cursor : Cursor) :
    holds cursor (Parser.elseArm cursor).run := by
  match cursor with
  | ⟨prev, [], stop, parens⟩ =>
      rw [run_elseArm_nil]
      exact invariant.ok _ _
  | ⟨prev, token :: rest, stop, parens⟩ =>
      have shorter := Cursor.left_next prev token rest stop parens
      have body := block invariant ⟨some token, rest, stop, parens⟩
      rw [run_elseArm_cons]
      split
      · rename_i elseWord
        have legal : token.kind ≠ .illegal := by
          rw [elseWord]
          decide
        match equal : rest, body with
        | [], body => exact invariant.cons legal (invariant.map some body)
        | token' :: rest', body =>
            have further : Cursor.left ⟨some token', rest', stop, parens⟩ + 2 ≤
                Cursor.left ⟨prev, token :: rest, stop, parens⟩ := by
              simp [Cursor.left, equal]
            dsimp only
            split
            · rename_i ifWord
              have legal' : token'.kind ≠ .illegal := by
                rw [ifWord]
                decide
              have nested := branch invariant token'.pos ⟨some token', rest', stop, parens⟩
              exact invariant.cons legal (invariant.cons legal' (invariant.map _ nested))
            · exact invariant.cons legal (invariant.map some body)
      · exact invariant.ok _ _
termination_by 6 * cursor.left

theorem args (invariant : Invariant holds) (cursor : Cursor) :
    holds cursor (Parser.args cursor).run := by
  rw [run_args]
  split
  · exact invariant.map _ (invariant.expect cursor (by decide))
  · exact arg invariant cursor
termination_by 6 * cursor.left + 5

theorem arg (invariant : Invariant holds) (cursor : Cursor) :
    holds cursor (Parser.arg cursor).run := by
  rw [run_arg]
  refine invariant.andThen (expr invariant .lowest cursor) ?_
  intro first next reads
  have shorter := Parsed.left_of_run_eq_ok reads
  exact invariant.map _ (moreArgs invariant next)
termination_by 6 * cursor.left + 4

theorem moreArgs (invariant : Invariant holds) (cursor : Cursor) :
    holds cursor (Parser.moreArgs cursor).run := by
  rw [run_moreArgs]
  split
  · exact invariant.map _ (invariant.expect cursor (by decide))
  · split
    · refine invariant.andThen (invariant.expect cursor (by decide)) ?_
      intro comma next reads
      have shorter := Parsed.left_of_run_eq_ok reads
      exact arg invariant next
    · exact invariant.complain _ _
termination_by 6 * cursor.left

theorem block (invariant : Invariant holds) (cursor : Cursor) :
    holds cursor (Parser.block cursor).run := by
  rw [run_block]
  refine invariant.andThen (invariant.expect cursor (by decide)) ?_
  intro opening inside opens
  have shorter := Parsed.left_of_run_eq_ok opens
  rw [← inside.left_withParens 0] at shorter
  exact invariant.withParens (statements invariant (inside.withParens 0))
termination_by 6 * cursor.left

theorem statements (invariant : Invariant holds) (cursor : Cursor) :
    holds cursor (Parser.statements cursor).run := by
  have bound := cursor.left_skipSemicolons_le
  refine invariant.skipSemicolons ?_
  rw [run_statements]
  split
  · exact invariant.map _ (invariant.expect _ (by decide))
  · refine invariant.andThen (statement invariant cursor.skipSemicolons) ?_
    intro first between reads
    refine invariant.andThen (invariant.endStatement .rightBrace between) ?_
    intro _ next ends
    have shorter := Parsed.left_of_run_eq_ok reads
    have further := Parsed.left_of_run_eq_ok ends
    exact invariant.map _ (statements invariant next)
termination_by 6 * cursor.left + 5

theorem statement (invariant : Invariant holds) (cursor : Cursor) :
    holds cursor (Parser.statement cursor).run := by
  match cursor with
  | ⟨prev, [], stop, parens⟩ =>
      rw [run_statement_nil]
      exact invariant.map _ (expr invariant .lowest ⟨prev, [], stop, parens⟩)
  | ⟨prev, token :: rest, stop, parens⟩ =>
      have shorter := Cursor.left_next prev token rest stop parens
      have whole := expr invariant .lowest ⟨prev, token :: rest, stop, parens⟩
      rw [run_statement_cons]
      rcases Decidable.em (token.kind = .illegal) with illegal | legal
      · rw [illegal]
        exact invariant.map _ whole
      cases token.kind
      case returnWord =>
        have given := expr invariant .lowest ⟨some token, rest, stop, parens⟩
        exact invariant.cons legal (invariant.map _ given)
      case letWord =>
        refine invariant.cons legal (invariant.andThen (invariant.expect _ (by decide)) ?_)
        intro name inside names
        refine invariant.andThen (invariant.expect inside (by decide)) ?_
        intro mark behind marks
        have further := Parsed.left_of_run_eq_ok names
        have beyond := Parsed.left_of_run_eq_ok marks
        exact invariant.map _ (expr invariant .lowest behind)
      case identifier =>
        match equal : rest, whole with
        | [], whole => exact invariant.map _ whole
        | mark :: rest', whole =>
            have further : Cursor.left ⟨some mark, rest', stop, parens⟩ + 2 ≤
                Cursor.left ⟨prev, token :: rest, stop, parens⟩ := by
              simp [Cursor.left, equal]
            dsimp only
            split
            · rename_i assigns
              have legal' : mark.kind ≠ .illegal := by
                rw [assigns]
                decide
              have given := expr invariant .lowest ⟨some mark, rest', stop, parens⟩
              exact invariant.cons legal (invariant.cons legal' (invariant.map _ given))
            · exact invariant.map _ whole
      case ifWord =>
        have choice := branch invariant token.pos ⟨some token, rest, stop, parens⟩
        exact invariant.cons legal (invariant.map _ choice)
      all_goals exact invariant.map _ whole
termination_by 6 * cursor.left + 4

end

theorem closedStatement (invariant : Invariant holds) (cursor : Cursor) :
    holds cursor (Parser.closedStatement cursor).run := by
  rw [run_closedStatement]
  refine invariant.andThen (invariant.statement cursor) ?_
  intro stmt next _
  exact invariant.map _ (invariant.endStatement .endOfInput next)

end Run.Invariant
end Siren
