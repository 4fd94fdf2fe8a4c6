import Mathlib.Data.List.Forall2
import Siren.Proofs.ParserProgress
import Siren.Proofs.SyntaxErrorPlaces
import Siren.Proofs.TokenLayout

/-!
# The order of syntax errors

A round of reading that fails complains about the token where it has stopped, and
recovering passes this token.  So the syntax errors of a source are about some of its
tokens, in the order of the source, and none is about a token twice.  Behind the end of
the input there is nothing to recover, so an error about it is the last one.

Reading itself passes no illegal token: only recovering does, when there is an error
already.
-/

namespace Siren

/-! ## Illegal tokens -/

/-- An illegal token that was ahead of a run is still ahead of its end. -/
theorem Run.Advances.exists_before
    {α : Type}
    {start : Cursor}
    {run : Run α}
    {before after : List Token}
    {illegal : Token}
    (advances : Run.Advances start run)
    (found : start.rest = before ++ illegal :: after)
    (kind : illegal.kind = .illegal) :
    ∃ nearer, run.cursor.rest = nearer ++ illegal :: after ∧ nearer ⊆ before := by
  obtain ⟨tokens, passes, legal⟩ := advances
  have passed := passes.rest
  rw [found] at passed
  rcases List.append_eq_append_iff.mp passed with ⟨others, rfl, rest⟩ | ⟨nearer, rfl, rest⟩
  · cases others with
    | nil => exact ⟨[], rest.symm, List.nil_subset _⟩
    | cons token others =>
        obtain ⟨rfl, -⟩ := List.cons.inj rest
        exact absurd kind (legal illegal (by simp))
  · exact ⟨nearer, rest, List.subset_append_right tokens nearer⟩

/-! ## Tokens with errors -/

/-- The tokens ahead, with the end of the input. -/
def Cursor.ahead (cursor : Cursor) : List Token :=
  cursor.rest ++ [.endAt cursor.stop]

namespace Cursor

theorem Passes.ahead_suffix
    {start next : Cursor}
    {tokens : List Token}
    (passes : start.Passes tokens next) :
    next.ahead <:+ start.ahead := by
  refine ⟨tokens, ?_⟩
  rw [ahead, ahead, passes.rest, passes.stop, List.append_assoc]

/-- Only the end of the input is ahead of the end. -/
theorem ahead_of_rest_nil
    {cursor : Cursor}
    (none : cursor.rest = []) :
    cursor.ahead = [cursor.current] := by
  rw [ahead, current, none]
  rfl

/-- An illegal token ahead is not the end of the input. -/
theorem exists_split_of_illegal
    {cursor : Cursor}
    {illegal : Token}
    (member : illegal ∈ cursor.ahead)
    (kind : illegal.kind = .illegal) :
    ∃ before after, cursor.rest = before ++ illegal :: after := by
  rcases List.mem_append.mp member with inside | last
  · exact List.append_of_mem inside
  · rw [List.mem_singleton.mp last] at kind
    cases kind

/-- Recovering passes the next token. -/
theorem current_recover_sublist
    {cursor : Cursor}
    (more : cursor.rest ≠ []) :
    (cursor.current :: cursor.recover.ahead).Sublist cursor.ahead := by
  obtain ⟨prev, rest, stop, parens⟩ := cursor
  cases rest with
  | nil => exact absurd rfl more
  | cons token rest =>
      obtain ⟨count, length⟩ : ∃ count, statementLength 0 (token :: rest) = count + 1 :=
        Nat.exists_eq_add_one.mpr (statementLength_pos 0 token rest)
      have skipped : recover ⟨prev, token :: rest, stop, parens⟩ =
          drop ⟨prev, token :: rest, stop, parens⟩ (count + 1) := by
        rw [recover, length]
      rw [skipped]
      exact ((List.drop_sublist count rest).append_right [Token.endAt stop]).cons_cons token

end Cursor

/-- A syntax error complains about a token. -/
def SyntaxError.IsAbout (error : SyntaxError) (token : Token) : Prop :=
  ∃ complaint, error = .about token complaint

namespace SyntaxError.IsAbout

variable {error : SyntaxError} {token : Token}

theorem pos_eq (about : error.IsAbout token) : error.pos = token.pos := by
  obtain ⟨complaint, rfl⟩ := about
  rfl

theorem incomplete_iff (about : error.IsAbout token) :
    error.incomplete = true ↔ token.kind = .endOfInput := by
  obtain ⟨complaint, rfl⟩ := about
  exact decide_eq_true_iff

end SyntaxError.IsAbout

/-- Syntax errors about some of the tokens, in their order. -/
def SyntaxError.InOrder (tokens : List Token) (errors : List SyntaxError) : Prop :=
  ∃ places, places.Sublist tokens ∧ List.Forall₂ SyntaxError.IsAbout errors places

/-! ## Rounds -/

namespace Parser

namespace Round

variable (cursor : Cursor)

theorem advances : Run.Advances cursor (ofCursor cursor).run :=
  Run.advances_invariant.skipSemicolons (Run.advances_invariant.closedStatement _)

theorem accounts : Run.Accounts cursor (ofCursor cursor).run :=
  Run.accounts_invariant.skipSemicolons (Run.accounts_invariant.closedStatement _)

end Round

namespace Rounds

variable {cursor last : Cursor} {rounds : List Round}

/-- There are no rounds at the end of the input. -/
theorem eq_nil
    (read : Rounds cursor rounds last)
    (none : cursor.rest = []) :
    rounds = [] := by
  cases read with
  | ended _ => rfl
  | step more _ =>
      have skipped := cursor.rest_skipSemicolons_suffix
      rw [none] at skipped
      exact absurd (List.suffix_nil.mp skipped) more

/-- The errors of rounds are about tokens ahead, in their order. -/
theorem inOrder (read : Rounds cursor rounds last) :
    SyntaxError.InOrder cursor.ahead (Result.ofRounds rounds).errors := by
  induction read with
  | ended none => exact ⟨[], List.nil_sublist _, .nil⟩
  | @step cursor last rounds more others inductionHypothesis =>
      obtain ⟨places, within, about⟩ := inductionHypothesis
      obtain ⟨tokens, passes, -⟩ := Round.advances cursor
      have accounts := Round.accounts cursor
      generalize Round.ofCursor cursor = round at others within passes accounts ⊢
      obtain ⟨start, ⟨error, stop⟩ | ⟨stmt, next⟩⟩ := round
      · obtain ⟨-, complaint, rfl⟩ := accounts
        refine ⟨stop.current :: places, ?_, .cons ⟨complaint, rfl⟩ about⟩
        refine List.Sublist.trans ?_ passes.ahead_suffix.sublist
        by_cases ended : stop.rest = []
        · -- Nothing is read behind the end of the input, so this error is the last.
          have recovered : stop.recover.rest = [] := by
            rw [Cursor.recover, Cursor.drop, ended, List.drop_nil]
          obtain rfl := others.eq_nil recovered
          obtain rfl := List.forall₂_nil_left_iff.mp about
          change [stop.current].Sublist stop.ahead
          rw [Cursor.ahead_of_rest_nil ended]
        · exact (within.cons_cons _).trans (Cursor.current_recover_sublist ended)
      · exact ⟨places, within.trans passes.ahead_suffix.sublist, about⟩

/-- The first error of rounds is about an illegal token ahead, or about a token before
it. -/
theorem exists_error_of_illegal
    (read : Rounds cursor rounds last)
    {before after : List Token}
    {illegal : Token}
    (found : cursor.rest = before ++ illegal :: after)
    (kind : illegal.kind = .illegal) :
    ∃ error others token, (Result.ofRounds rounds).errors = error :: others ∧
      error.IsAbout token ∧ token ∈ before ++ [illegal] := by
  induction read generalizing before with
  | @ended cursor none =>
      have advances := Run.advances_invariant.skipSemicolons
        (Run.advances_invariant.ok () cursor.skipSemicolons)
      obtain ⟨nearer, rest, -⟩ := advances.exists_before found kind
      rw [Run.cursor, none] at rest
      exact absurd rest.symm (by simp)
  | @step cursor last rounds more others inductionHypothesis =>
      obtain ⟨nearer, rest, within⟩ := (Round.advances cursor).exists_before found kind
      have accounts := Round.accounts cursor
      generalize Round.ofCursor cursor = round at others accounts rest inductionHypothesis ⊢
      obtain ⟨start, ⟨error, stop⟩ | ⟨stmt, next⟩⟩ := round
      · obtain ⟨-, complaint, rfl⟩ := accounts
        refine ⟨_, _, stop.current, rfl, ⟨complaint, rfl⟩, ?_⟩
        change stop.rest = nearer ++ illegal :: after at rest
        rw [Cursor.current, rest]
        cases nearer with
        | nil => simp
        | cons token nearer =>
            exact List.mem_append_left _ (within List.mem_cons_self)
      · obtain ⟨error, others, token, errors, about, member⟩ := inductionHypothesis rest
        refine ⟨error, others, token, errors, about, ?_⟩
        rcases List.mem_append.mp member with passed | reached
        · exact List.mem_append_left _ (within passed)
        · exact List.mem_append_right _ reached

end Rounds
end Parser

/-! ## Sources -/

/-- Every token stands before the end of the input, or is the end. -/
theorem Layout.eq_or_before_end
    {before left : Text}
    {tokens : List Token}
    (layout : Layout before tokens left)
    {token stop : Token}
    (member : token ∈ tokens)
    (member' : stop ∈ tokens)
    (ends : stop.kind = .endOfInput) :
    token = stop ∨ token.pos.offset < stop.pos.offset := by
  obtain ⟨words, rfl, noEnd⟩ := layout.exists_stop
  rcases List.mem_append.mp member' with inside | last
  · exact absurd ends (noEnd stop inside)
  · rcases List.mem_append.mp member with earlier | same
    · exact .inr (layout.offset_lt rfl earlier last)
    · left
      rw [List.mem_singleton.mp same, List.mem_singleton.mp last]

namespace SyntaxError

/-- An error stands at the end of the input. -/
def AtEnd (tokens : List Token) (error : SyntaxError) : Prop :=
  ∃ token ∈ tokens, token.kind = .endOfInput ∧ error.pos = token.pos

namespace InOrder

variable {tokens : List Token} {errors : List SyntaxError}

theorem exists_token
    (ordered : InOrder tokens errors)
    {error : SyntaxError}
    (member : error ∈ errors) :
    ∃ token ∈ tokens, error.IsAbout token := by
  obtain ⟨places, within, about⟩ := ordered
  obtain ⟨index, bound, rfl⟩ := List.getElem_of_mem member
  have bound' : index < places.length := about.length_eq ▸ bound
  exact ⟨places[index], within.subset (List.getElem_mem bound'), about.get bound bound'⟩

/-- The offsets of errors increase with those of the tokens. -/
theorem offsets_increase
    (ordered : InOrder tokens errors)
    (increase : (tokens.map (·.pos.offset)).Pairwise (· < ·)) :
    (errors.map (·.pos.offset)).Pairwise (· < ·) := by
  obtain ⟨places, within, about⟩ := ordered
  have same : errors.map (·.pos.offset) = places.map (·.pos.offset) := by
    clear within
    induction about with
    | nil => rfl
    | cons first _ inductionHypothesis =>
        rw [List.map_cons, List.map_cons, inductionHypothesis, first.pos_eq]
  rw [same]
  exact increase.sublist (within.map _)

variable {before left : Text}

/-- An error is incomplete exactly when it stands at the end of the input. -/
theorem incomplete_iff
    (ordered : InOrder tokens errors)
    (layout : Layout before tokens left)
    {error : SyntaxError}
    (member : error ∈ errors) :
    error.incomplete = true ↔ error.AtEnd tokens := by
  obtain ⟨token, inside, about⟩ := ordered.exists_token member
  rw [about.incomplete_iff]
  constructor
  · intro ends
    exact ⟨token, inside, ends, about.pos_eq⟩
  · rintro ⟨stop, inside', ends, same⟩
    rcases layout.eq_or_before_end inside inside' ends with rfl | earlier
    · exact ends
    · rw [← about.pos_eq, same] at earlier
      omega

/-- No error comes after one that is incomplete. -/
theorem eq_nil_of_incomplete
    (ordered : InOrder tokens errors)
    (layout : Layout before tokens left)
    {earlier later : List SyntaxError}
    {error : SyntaxError}
    (split : errors = earlier ++ error :: later)
    (incomplete : error.incomplete = true) :
    later = [] := by
  have increase := ordered.offsets_increase layout.offsets_increase
  subst split
  have member : error ∈ earlier ++ error :: later := by simp
  obtain ⟨stop, inside', about'⟩ := ordered.exists_token member
  apply List.eq_nil_iff_forall_not_mem.mpr
  intro next present
  have member' : next ∈ earlier ++ error :: later := by simp [present]
  obtain ⟨token, inside, about⟩ := ordered.exists_token member'
  rw [List.map_append, List.map_cons, List.pairwise_append, List.pairwise_cons] at increase
  have behind := increase.2.1.1 _ (List.mem_map_of_mem present)
  rw [about.pos_eq, about'.pos_eq] at behind
  have ends := about'.incomplete_iff.mp incomplete
  rcases layout.eq_or_before_end inside inside' ends with rfl | before
  · omega
  · omega

/-- The source only ended too early when its one error stands at its end. -/
theorem isIncomplete_iff
    (ordered : InOrder tokens errors)
    (layout : Layout before tokens left) :
    isIncomplete errors = true ↔ ∃ error, errors = [error] ∧ error.AtEnd tokens := by
  constructor
  · intro incomplete
    cases errors with
    | nil => cases incomplete
    | cons error others =>
        obtain rfl := ordered.eq_nil_of_incomplete layout (List.nil_append _).symm incomplete
        exact ⟨error, rfl, (ordered.incomplete_iff layout List.mem_cons_self).mp incomplete⟩
  · rintro ⟨error, rfl, atEnd⟩
    exact (ordered.incomplete_iff layout List.mem_cons_self).mpr atEnd

/-- Some error is incomplete when the last one stands at the end. -/
theorem anyIncomplete_iff
    (ordered : InOrder tokens errors)
    (layout : Layout before tokens left) :
    anyIncomplete errors = true ↔ ∃ error, errors.getLast? = some error ∧ error.AtEnd tokens := by
  rw [anyIncomplete, List.any_eq_true]
  constructor
  · rintro ⟨error, member, incomplete⟩
    have atEnd := (ordered.incomplete_iff layout member).mp incomplete
    obtain ⟨earlier, later, split⟩ := List.append_of_mem member
    obtain rfl := ordered.eq_nil_of_incomplete layout split incomplete
    exact ⟨error, by rw [split, List.getLast?_concat], atEnd⟩
  · rintro ⟨error, last, atEnd⟩
    have member := List.mem_of_getLast? last
    exact ⟨error, member, (ordered.incomplete_iff layout member).mpr atEnd⟩

end InOrder
end SyntaxError

namespace Program

/-- All tokens of a source are ahead of its start. -/
theorem ahead_ofText (source : Text) :
    (Cursor.ofTokens (Token.ofText source)).ahead = Token.ofText source := by
  have layout : Layout [] (Token.ofText source) source := Lexer.layout_tokenize rfl
  obtain ⟨words, equal, noEnd⟩ := layout.exists_stop
  have ends : (Token.endAt (.behind ([] ++ source))).kind = .endOfInput := rfl
  have begins := Cursor.standsAt_ofTokens noEnd ends
  rw [equal, Cursor.ahead, begins.rest, begins.stop]
  rfl

/-- The errors of a source are about some of its tokens, in their order. -/
theorem inOrder_errors (source : Text) :
    SyntaxError.InOrder (Token.ofText source) (ofText source).errors := by
  obtain ⟨rounds, last, read⟩ := Parser.exists_rounds (.ofTokens (Token.ofText source))
  have ordered := read.inOrder
  rw [ahead_ofText, ← read.program_eq] at ordered
  exact ordered

/-- The first error of a source with an illegal token stands at or before that token. -/
theorem exists_error_of_illegal
    {source : Text}
    {illegal : Token}
    (member : illegal ∈ Token.ofText source)
    (kind : illegal.kind = .illegal) :
    ∃ error others, (ofText source).errors = error :: others ∧
      error.pos.offset ≤ illegal.pos.offset := by
  have layout : Layout [] (Token.ofText source) source := Lexer.layout_tokenize rfl
  obtain ⟨rounds, last, read⟩ := Parser.exists_rounds (.ofTokens (Token.ofText source))
  have whole := ahead_ofText source
  obtain ⟨before, after, found⟩ := Cursor.exists_split_of_illegal (whole ▸ member) kind
  obtain ⟨error, others, token, first, about, inside⟩ := read.exists_error_of_illegal found kind
  rw [← read.program_eq] at first
  refine ⟨error, others, first, ?_⟩
  rw [about.pos_eq]
  rcases List.mem_append.mp inside with earlier | same
  · rw [Cursor.ahead, found, List.append_assoc] at whole
    exact Nat.le_of_lt (layout.offset_lt whole.symm earlier List.mem_cons_self)
  · rw [List.mem_singleton.mp same]

end Program

/-- The syntax errors of every source are in the order of the source, and only the last
one can be incomplete.  Their offsets increase, each stands at a token, and it is
incomplete exactly when this token is the end of the input.  So the source only ended too
early when there is one error and it stands at the end, and some error is incomplete when
the last one stands there.  A source with an illegal token has an error, and the first one
stands at or before that token. -/
theorem syntax_errors_are_in_source_order (source : Text) :
    let tokens := Token.ofText source
    let errors := (Program.ofText source).errors
    (errors.map (·.pos.offset)).Pairwise (· < ·) ∧
    (∀ error ∈ errors, ∃ token ∈ tokens, error.pos = token.pos ∧
      (error.incomplete = true ↔ token.kind = .endOfInput)) ∧
    (∀ earlier error later, errors = earlier ++ error :: later → error.incomplete = true →
      later = []) ∧
    (SyntaxError.isIncomplete errors = true ↔
      ∃ error, errors = [error] ∧ error.AtEnd tokens) ∧
    (SyntaxError.anyIncomplete errors = true ↔
      ∃ error, errors.getLast? = some error ∧ error.AtEnd tokens) ∧
    (∀ illegal ∈ tokens, illegal.kind = .illegal →
      ∃ error others, errors = error :: others ∧ error.pos.offset ≤ illegal.pos.offset) := by
  intro tokens errors
  have layout : Layout [] tokens source := Lexer.layout_tokenize rfl
  have ordered : SyntaxError.InOrder tokens errors := Program.inOrder_errors source
  refine ⟨ordered.offsets_increase layout.offsets_increase, ?_, ?_,
    ordered.isIncomplete_iff layout, ordered.anyIncomplete_iff layout, ?_⟩
  · intro error member
    obtain ⟨token, inside, about⟩ := ordered.exists_token member
    exact ⟨token, inside, about.pos_eq, about.incomplete_iff⟩
  · intro earlier error later split incomplete
    exact ordered.eq_nil_of_incomplete layout split incomplete
  · exact fun illegal member kind => Program.exists_error_of_illegal member kind

/-- A name is missing before an illegal token and an operand behind it: the error at the
end of the input is the last of three, so the source did not only end too early. -/
theorem syntax_errors_are_in_source_order_illegal :
    let source : Text := "let = 1; @; ("
    let errors := (Program.ofText source).errors
    let illegal : Token := ⟨.illegal, "@", ⟨1, 10, 9⟩⟩
    errors.map (·.pos.offset) = [4, 9, 13] ∧ errors.map (·.incomplete) = [false, false, true] ∧
      illegal ∈ Token.ofText source ∧
      (∃ error others, errors = error :: others ∧ error.pos.offset ≤ 9) ∧
      ∃ error, errors.getLast? = some error ∧ error.AtEnd (Token.ofText source) := by
  intro source errors illegal
  have member : illegal ∈ Token.ofText source := by decide +kernel
  have any : SyntaxError.anyIncomplete errors = true := by decide +kernel
  obtain ⟨-, -, -, -, last, first⟩ := syntax_errors_are_in_source_order source
  exact ⟨by decide +kernel, by decide +kernel, member, first illegal member rfl, last.mp any⟩

end Siren
