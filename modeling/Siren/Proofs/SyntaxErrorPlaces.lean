import Siren.Proofs.ParserInvariants

/-!
# Where syntax errors stand

A run of the parser never leaves the tokens that were ahead of it, and a syntax
error is about the token where the run stopped.  So an error is incomplete
exactly when the run stopped for want of tokens.
-/

namespace Siren

namespace Run

variable {α β : Type}

/-- A run that starts at a cursor ends ahead of it, and an error is about the
token where it stopped. -/
def Accounts (start : Cursor) : Run α → Prop
  | .ok (_, next) => next.rest <:+ start.rest
  | .error (error, stop) =>
    stop.rest <:+ start.rest ∧ ∃ complaint, error = .about stop.current complaint

namespace Accounts

variable {start : Cursor}

theorem rest_suffix
    {run : Run α}
    (accounts : Accounts start run) :
    run.cursor.rest <:+ start.rest := by
  rcases run with ⟨error, stop⟩ | ⟨value, next⟩
  · exact accounts.1
  · exact accounts

theorem complain
    {cursor : Cursor}
    (within : cursor.rest <:+ start.rest)
    (complaint : Complaint) :
    Accounts start (Run.complain cursor complaint : Run α) :=
  ⟨within, complaint, rfl⟩

theorem map
    {run : Run α}
    (accounts : Accounts start run)
    (change : α → β) :
    Accounts start (run.map change) := by
  rcases run with ⟨error, stop⟩ | ⟨value, next⟩
  · exact accounts
  · exact accounts

theorem leave
    {run : Run α}
    (accounts : Accounts start run) :
    Accounts start (run.mapCursor Cursor.leave) := by
  rcases run with ⟨error, stop⟩ | ⟨value, next⟩
  · exact accounts
  · exact accounts

theorem withParens
    {run : Run α}
    (accounts : Accounts (start.withParens 0) run)
    (parens : Nat) :
    Accounts start (run.mapCursor (Cursor.withParens · parens)) := by
  rcases run with ⟨error, stop⟩ | ⟨value, next⟩
  · exact accounts
  · exact accounts

theorem since
    {next : Cursor}
    {run : Run α}
    (accounts : Accounts next run)
    (within : next.rest <:+ start.rest) :
    Accounts start run := by
  rcases run with ⟨error, stop⟩ | ⟨value, after⟩
  · exact ⟨accounts.1.trans within, accounts.2⟩
  · exact List.IsSuffix.trans accounts within

theorem andThen
    {first : Run α}
    {second : α → Cursor → Run β}
    (accounts : Accounts start first)
    (further : ∀ value next, first = .ok (value, next) → Accounts next (second value next)) :
    Accounts start (first.andThen second) := by
  rcases first with ⟨error, stop⟩ | ⟨value, next⟩
  · exact accounts
  · exact (further value next rfl).since accounts

end Accounts
end Run

/-- The steps of the parser keep account of where they fail. -/
theorem Run.accounts_invariant : Run.Invariant Run.Accounts where
  ok _ _ := List.suffix_refl _
  complain _ complaint := .complain (List.suffix_refl _) complaint
  map change accounts := accounts.map change
  cons _ accounts := accounts.since (List.suffix_cons _ _)
  andThen accounts further := accounts.andThen further
  leave accounts := accounts.leave.since (List.suffix_refl _)
  withParens accounts := accounts.withParens _

theorem Cursor.rest_skipSemicolons_suffix (cursor : Cursor) :
    cursor.skipSemicolons.rest <:+ cursor.rest :=
  List.drop_suffix _ _

theorem Parser.endStatement_accounts (closing : Kind) (cursor : Cursor) :
    Run.Accounts cursor (endStatement closing cursor).run :=
  Run.accounts_invariant.endStatement closing cursor

theorem Parser.closedStatement_accounts (cursor : Cursor) :
    Run.Accounts cursor (closedStatement cursor).run :=
  Run.accounts_invariant.closedStatement cursor

/-- Among tokens without an end of the input, an error is incomplete exactly when
no token was left. -/
theorem Run.Accounts.incomplete_iff
    {α : Type}
    {start stop : Cursor}
    {error : SyntaxError}
    (accounts : Accounts start (.error (error, stop) : Run α))
    (noEnd : ∀ token ∈ start.rest, token.kind ≠ .endOfInput) :
    error.incomplete = true ↔ stop.rest = [] := by
  obtain ⟨within, complaint, rfl⟩ := accounts
  obtain ⟨prev, rest, pos, parens⟩ := stop
  cases rest with
  | nil => simp [SyntaxError.about, Cursor.current, Token.endAt]
  | cons token rest =>
      have other := noEnd token (within.subset List.mem_cons_self)
      simp [SyntaxError.about, Cursor.current, other]

end Siren
