import Siren.Proofs.GrammarCompleteness
import Siren.Proofs.ParserInvariants

/-!
# Progress of the parser

Every run of the parser passes tokens, none of them illegal, whether it succeeds or
fails, and leaves as many parentheses open as it found.  So a program is read in finitely
many rounds: each reads a statement, or fails and recovers, and each passes at least one
token.

A cursor over a token list stands for an index into it.  Taking a token moves the index
by one, and nothing else moves it, so all that the parser looks at is in the list.
-/

namespace Siren

/-! ## Runs -/

/-- A run that starts at a cursor ends behind some of the tokens ahead of it, none of
them illegal, with as many parentheses open, whether it fails or not. -/
def Run.Advances {α : Type} (start : Cursor) (run : Run α) : Prop :=
  ∃ tokens, start.Passes tokens run.cursor ∧ ∀ token ∈ tokens, token.kind ≠ .illegal

/-- Every reading function advances. -/
theorem Run.advances_invariant : Run.Invariant Run.Advances where
  ok _ cursor := ⟨[], .refl cursor, List.forall_mem_nil _⟩
  complain cursor _ := ⟨[], .refl cursor, List.forall_mem_nil _⟩
  map := by
    rintro _ _ start (⟨error, stop⟩ | ⟨value, next⟩) change advances
    · exact advances
    · exact advances
  cons := by
    rintro _ _ _ _ _ _ _ allowed ⟨tokens, passes, legal⟩
    exact ⟨_, passes.cons, List.forall_mem_cons.mpr ⟨allowed, legal⟩⟩
  andThen := by
    rintro _ _ start (⟨error, stop⟩ | ⟨value, next⟩) second ⟨tokens, passes, legal⟩ further
    · exact ⟨tokens, passes, legal⟩
    · obtain ⟨others, passes', legal'⟩ := further value next rfl
      exact ⟨tokens ++ others, passes.trans passes', List.forall_mem_append.mpr ⟨legal, legal'⟩⟩
  leave := by
    rintro _ _ _ _ _ (⟨error, last⟩ | ⟨value, next⟩) ⟨tokens, passes, legal⟩
    · exact ⟨tokens, passes.leave, legal⟩
    · exact ⟨tokens, passes.leave, legal⟩
  withParens := by
    rintro _ start (⟨error, last⟩ | ⟨value, next⟩) ⟨tokens, passes, legal⟩
    · exact ⟨tokens, passes.withParens start.parens, legal⟩
    · exact ⟨tokens, passes.withParens start.parens, legal⟩

namespace Cursor

theorem Passes.left_eq
    {start next : Cursor}
    {tokens : List Token}
    (passes : start.Passes tokens next) :
    start.left = tokens.length + next.left := by
  rw [left, passes.rest, List.length_append, left]

/-- Dropping tokens passes them. -/
theorem passes_drop (cursor : Cursor) (count : Nat) :
    cursor.Passes (cursor.rest.take count) (cursor.drop count) where
  rest := (List.take_append_drop count cursor.rest).symm
  prev := rfl
  stop := rfl
  parens := rfl

end Cursor

/-- A successful reading function that promises progress has passed a token. -/
theorem Parsed.exists_passes
    {α : Type}
    {start : Cursor}
    (parsed : Parsed 1 α start)
    (advances : parsed.run.Advances start) :
    ∃ tokens, start.Passes tokens parsed.run.cursor ∧ (parsed.run.isOk = true → tokens ≠ []) := by
  obtain ⟨tokens, passes, -⟩ := advances
  refine ⟨tokens, passes, ?_⟩
  rintro done rfl
  cases parsed with
  | done value next progress =>
      have equal : start.left = 0 + next.left := passes.left_eq
      omega
  | failed error stop bound => cases done

namespace Parser

/-! ## Constructs -/

/-- The constructs that the parser reads at a cursor, with what else their reading
functions are given. -/
inductive Construct where
  | statement
  | block
  | expr (level : Level)
  | operand
  | function (pos : Position)
  | branch (pos : Position)
  | args

/-- Reads a construct, for the sake of where this ends. -/
def Construct.read (construct : Construct) (cursor : Cursor) : Parsed 1 Unit cursor :=
  match construct with
  | .statement => (Parser.statement cursor).map fun _ => ()
  | .block => (Parser.block cursor).map fun _ => ()
  | .expr level => (Parser.expr level cursor).map fun _ => ()
  | .operand => (Parser.operand cursor).map fun _ => ()
  | .function pos => (Parser.function pos cursor).map fun _ => ()
  | .branch pos => (Parser.branch pos cursor).map fun _ => ()
  | .args => (Parser.args cursor).map fun _ => ()

theorem Construct.advances (construct : Construct) (cursor : Cursor) :
    (construct.read cursor).run.Advances cursor := by
  have invariant := Run.advances_invariant
  cases construct with
  | statement =>
      simpa only [read, Parsed.run_map] using invariant.map _ (invariant.statement cursor)
  | block => simpa only [read, Parsed.run_map] using invariant.map _ (invariant.block cursor)
  | expr level =>
      simpa only [read, Parsed.run_map] using invariant.map _ (invariant.expr level cursor)
  | operand => simpa only [read, Parsed.run_map] using invariant.map _ (invariant.operand cursor)
  | function pos =>
      simpa only [read, Parsed.run_map] using invariant.map _ (invariant.function pos cursor)
  | branch pos =>
      simpa only [read, Parsed.run_map] using invariant.map _ (invariant.branch pos cursor)
  | args => simpa only [read, Parsed.run_map] using invariant.map _ (invariant.args cursor)

/-! ## Rounds -/

/-- A round of reading a program: a statement is read, with what closes it. -/
structure Round where
  /-- Where the statement begins. -/
  start : Cursor
  /-- What reading it gives. -/
  run : Run Stmt

namespace Round

/-- The round at a cursor, behind the semicolons ahead. -/
def ofCursor (cursor : Cursor) : Round :=
  ⟨cursor.skipSemicolons, (closedStatement cursor.skipSemicolons).run⟩

/-- Where the next round begins: behind the statement, or where the parser recovers. -/
def next (round : Round) : Cursor :=
  match round.run with
  | .ok (_, next) => next
  | .error (_, stop) => stop.recover

/-- The statement that was read. -/
def stmt? (round : Round) : Option Stmt :=
  match round.run with
  | .ok (stmt, _) => some stmt
  | .error _ => none

/-- The syntax error, if there is no statement. -/
def error? (round : Round) : Option SyntaxError :=
  match round.run with
  | .ok _ => none
  | .error (error, _) => some error

end Round

/-- The rounds from a cursor up to the end of the input. -/
inductive Rounds : Cursor → List Round → Cursor → Prop where
  | ended {cursor : Cursor} (none : cursor.skipSemicolons.rest = []) :
      Rounds cursor [] cursor.skipSemicolons
  | step {cursor last : Cursor} {rounds : List Round}
      (more : cursor.skipSemicolons.rest ≠ [])
      (others : Rounds (Round.ofCursor cursor).next rounds last) :
      Rounds cursor (Round.ofCursor cursor :: rounds) last

/-- The statements and the syntax errors of rounds. -/
def Result.ofRounds (rounds : List Round) : Result :=
  ⟨rounds.filterMap Round.stmt?, rounds.filterMap Round.error?⟩

theorem Result.ofRounds_cons_ok
    (start : Cursor) (stmt : Stmt) (next : Cursor) (rounds : List Round) :
    ofRounds (⟨start, .ok (stmt, next)⟩ :: rounds) =
      ⟨stmt :: (ofRounds rounds).program, (ofRounds rounds).errors⟩ := rfl

theorem Result.ofRounds_cons_error
    (start : Cursor) (error : SyntaxError) (stop : Cursor) (rounds : List Round) :
    ofRounds (⟨start, .error (error, stop)⟩ :: rounds) =
      ⟨(ofRounds rounds).program, error :: (ofRounds rounds).errors⟩ := rfl

/-- A round passes tokens up to where the next one begins. -/
theorem Round.exists_passes
    {cursor : Cursor}
    (more : cursor.skipSemicolons.rest ≠ []) :
    ∃ tokens, tokens ≠ [] ∧
      (ofCursor cursor).start.Passes tokens (ofCursor cursor).next := by
  have nonempty : cursor.skipSemicolons.left ≠ 0 := mt List.length_eq_zero_iff.mp more
  obtain ⟨tokens, passes, promised⟩ := (closedStatement cursor.skipSemicolons).exists_passes
    (Run.advances_invariant.closedStatement cursor.skipSemicolons)
  rcases reads : (closedStatement cursor.skipSemicolons).run with ⟨error, stop⟩ | ⟨stmt, next⟩
  · rw [reads] at passes
    have recovers : (ofCursor cursor).next = stop.recover := by
      simp only [next, ofCursor, reads]
    refine ⟨tokens ++ stop.rest.take (Cursor.statementLength 0 stop.rest), ?_, ?_⟩
    · -- Reading may have failed at its first token, but then recovering passes it.
      intro none
      obtain ⟨rfl, skipped⟩ := List.append_eq_nil_iff.mp none
      have same : cursor.skipSemicolons.left = 0 + stop.left := passes.left_eq
      have passed := stop.left_recover_lt (by omega)
      rw [Cursor.recover, (stop.passes_drop _).left_eq, skipped] at passed
      simp at passed
    · rw [recovers]
      exact passes.trans (stop.passes_drop _)
  · have ends : (ofCursor cursor).next = next := by
      simp only [Round.next, ofCursor, reads]
    rw [reads] at passes promised
    exact ⟨tokens, promised rfl, ends ▸ passes⟩

theorem Round.left_next_lt
    {cursor : Cursor}
    (more : cursor.skipSemicolons.rest ≠ []) :
    (ofCursor cursor).next.left < cursor.left := by
  obtain ⟨tokens, nonempty, passes⟩ := exists_passes more
  have passed := passes.left_eq
  have positive := List.length_pos_iff.mpr nonempty
  have skipped : (ofCursor cursor).start.left ≤ cursor.left := cursor.left_skipSemicolons_le
  omega

/-- Reading a program comes to an end. -/
theorem exists_rounds (cursor : Cursor) : ∃ rounds last, Rounds cursor rounds last := by
  by_cases none : cursor.skipSemicolons.rest = []
  · exact ⟨[], _, .ended none⟩
  · have shorter := Round.left_next_lt none
    obtain ⟨rounds, last, others⟩ := exists_rounds (Round.ofCursor cursor).next
    exact ⟨_, last, .step none others⟩
termination_by cursor.left

namespace Rounds

variable {cursor last : Cursor} {rounds : List Round}

/-- A program is what its rounds give. -/
theorem program_eq (read : Rounds cursor rounds last) :
    program cursor = Result.ofRounds rounds := by
  induction read with
  | ended none =>
      rw [Parser.program_eq, if_pos none]
      rfl
  | @step cursor last rounds more others inductionHypothesis =>
      rw [Parser.program_eq, if_neg more]
      rcases reads : (closedStatement cursor.skipSemicolons).run with ⟨error, stop⟩ | ⟨stmt, next⟩
      · have failed : Round.ofCursor cursor = ⟨cursor.skipSemicolons, .error (error, stop)⟩ := by
          rw [Round.ofCursor, reads]
        rw [failed] at inductionHypothesis ⊢
        rw [Result.ofRounds_cons_error, ← inductionHypothesis]
        rfl
      · have done : Round.ofCursor cursor = ⟨cursor.skipSemicolons, .ok (stmt, next)⟩ := by
          rw [Round.ofCursor, reads]
        rw [done] at inductionHypothesis ⊢
        rw [Result.ofRounds_cons_ok, ← inductionHypothesis]
        rfl

/-- Rounds pass all tokens ahead. -/
theorem exists_passes (read : Rounds cursor rounds last) :
    last.rest = [] ∧ ∃ tokens, cursor.Passes tokens last := by
  induction read with
  | ended none => exact ⟨none, _, Cursor.passes_skipSemicolons _⟩
  | step more others inductionHypothesis =>
      obtain ⟨ended, tokens, passes⟩ := inductionHypothesis
      obtain ⟨first, -, passes'⟩ := Round.exists_passes more
      exact ⟨ended, _, (Cursor.passes_skipSemicolons _).trans (passes'.trans passes)⟩

/-- Every round begins behind some tokens, and passes at least one. -/
theorem exists_passes_of_mem
    (read : Rounds cursor rounds last)
    {round : Round}
    (member : round ∈ rounds) :
    ∃ before tokens, cursor.Passes before round.start ∧ tokens ≠ [] ∧
      round.start.Passes tokens round.next := by
  induction read with
  | ended none => cases member
  | @step cursor last rounds more others inductionHypothesis =>
      obtain ⟨first, nonempty, passes⟩ := Round.exists_passes more
      rcases List.mem_cons.mp member with rfl | later
      · exact ⟨_, first, cursor.passes_skipSemicolons, nonempty, passes⟩
      · obtain ⟨before, tokens, further, nonempty', passes'⟩ := inductionHypothesis later
        exact ⟨_, tokens, cursor.passes_skipSemicolons.trans (passes.trans further), nonempty',
          passes'⟩

end Rounds
end Parser

/-! ## Indices -/

namespace Cursor

/-- The cursor stands before the token with an index.  The end of the input has the
index behind all tokens before it. -/
structure StandsAt (body : List Token) (stop : Token) (index : Nat) (cursor : Cursor) :
    Prop where
  bound : index ≤ body.length
  prev : cursor.prev = (body.take index).getLast?
  rest : cursor.rest = body.drop index
  stop : cursor.stop = stop.pos

namespace StandsAt

variable {body tokens : List Token} {stop : Token} {index : Nat} {cursor next : Cursor}

/-- Passing tokens moves the index by their number. -/
theorem passes
    (stands : cursor.StandsAt body stop index)
    (passes : cursor.Passes tokens next) :
    next.StandsAt body stop (index + tokens.length) := by
  have ahead : body.drop index = tokens ++ next.rest := stands.rest ▸ passes.rest
  have whole : body = body.take index ++ (tokens ++ next.rest) := by
    rw [← ahead, List.take_append_drop]
  have bound := stands.bound
  have behind : body.take (index + tokens.length) = body.take index ++ tokens := by
    rw [List.take_add, ahead, List.take_left]
  refine ⟨?_, ?_, ?_, passes.stop.trans stands.stop⟩
  · have length := congrArg List.length whole
    rw [List.length_append, List.length_append, List.length_take] at length
    omega
  · rw [behind, List.getLast?_append, passes.prev, stands.prev]
  · rw [← List.drop_drop, ahead, List.drop_left]

theorem withParens
    (stands : cursor.StandsAt body stop index)
    (parens : Nat) :
    (cursor.withParens parens).StandsAt body stop index :=
  ⟨stands.bound, stands.prev, stands.rest, stands.stop⟩

/-- Dropping tokens stops at the end of the input. -/
theorem drop
    (stands : cursor.StandsAt body stop index)
    (count : Nat) :
    (cursor.drop count).StandsAt body stop (min (index + count) body.length) := by
  have moved := stands.passes (cursor.passes_drop count)
  rw [stands.rest, List.length_take, List.length_drop] at moved
  have bound := stands.bound
  rwa [show index + min count (body.length - index) = min (index + count) body.length by omega]
    at moved

/-- The next token is the one with the index. -/
theorem current_eq
    (stands : cursor.StandsAt body stop index)
    (ends : stop.kind = .endOfInput) :
    ∃ token, (body ++ [stop])[index]? = some token ∧ cursor.kind = token.kind ∧
      cursor.current.pos = token.pos := by
  rw [kind, current, stands.rest, stands.stop, List.headD_eq_head?_getD, List.head?_drop]
  by_cases inside : index < body.length
  · refine ⟨body[index], ?_, ?_⟩
    · rw [List.getElem?_append_left inside, List.getElem?_eq_getElem inside]
    · simp [List.getElem?_eq_getElem inside]
  · obtain rfl : index = body.length := by have := stands.bound; omega
    exact ⟨stop, by simp, by simp [ends, Token.endAt], by simp [Token.endAt]⟩

/-- The token read last is the one before the index. -/
theorem prev_eq (stands : cursor.StandsAt body stop index) :
    cursor.prev = if index = 0 then none else (body ++ [stop])[index - 1]? := by
  have bound := stands.bound
  rw [stands.prev, List.getLast?_take]
  split
  · rfl
  · rename_i positive
    rw [List.getElem?_append_left (by omega), List.getElem?_eq_getElem (by omega)]
    rfl

end StandsAt

/-- The cursors that can be made from one by the operations on cursors: a token is taken,
or another number of parentheses is open. -/
inductive Reached (start : Cursor) : Cursor → Prop where
  | start : Reached start start
  | next {prev : Option Token} {token : Token} {rest : List Token} {stop : Position}
      {parens : Nat}
      (before : Reached start ⟨prev, token :: rest, stop, parens⟩) :
      Reached start ⟨some token, rest, stop, parens⟩
  | withParens {cursor : Cursor} (before : Reached start cursor) (parens : Nat) :
      Reached start (cursor.withParens parens)

namespace Reached

variable {start cursor : Cursor}

theorem passes
    {tokens : List Token}
    {next : Cursor}
    (reached : start.Reached cursor)
    (passes : cursor.Passes tokens next) :
    start.Reached next := by
  induction tokens generalizing cursor with
  | nil => exact passes.eq_of_nil ▸ reached
  | cons token tokens inductionHypothesis =>
      obtain ⟨prev, rest, stop, parens, rfl, further⟩ := passes.uncons
      exact inductionHypothesis reached.next further

/-- A cursor made from the start of a token list stands before one of its tokens. -/
theorem exists_standsAt
    {body : List Token}
    {stop : Token}
    (reached : start.Reached cursor)
    (stands : start.StandsAt body stop 0) :
    ∃ index, cursor.StandsAt body stop index := by
  induction reached with
  | start => exact ⟨0, stands⟩
  | next before inductionHypothesis =>
      obtain ⟨index, stands⟩ := inductionHypothesis
      exact ⟨_, stands.passes (Passes.refl _).cons⟩
  | withParens before parens inductionHypothesis =>
      obtain ⟨index, stands⟩ := inductionHypothesis
      exact ⟨index, stands.withParens parens⟩

end Reached

/-- What can be seen from a cursor lies in the token list: the next token, the one
behind it and the one read last. -/
structure Sees (tokens : List Token) (index : Nat) (cursor : Cursor) : Prop where
  bound : index < tokens.length
  current : ∃ token, tokens[index]? = some token ∧ cursor.kind = token.kind ∧
    cursor.current.pos = token.pos
  second : ∃ token, tokens[min (index + 1) (tokens.length - 1)]? = some token ∧
    (cursor.drop 1).kind = token.kind ∧ (cursor.drop 1).current.pos = token.pos
  prev : cursor.prev = if index = 0 then none else tokens[index - 1]?

theorem StandsAt.sees
    {body : List Token}
    {stop : Token}
    {index : Nat}
    {cursor : Cursor}
    (stands : cursor.StandsAt body stop index)
    (ends : stop.kind = .endOfInput) :
    cursor.Sees (body ++ [stop]) index where
  bound := by
    have bound := stands.bound
    simp only [List.length_append, List.length_singleton]
    omega
  current := stands.current_eq ends
  second := by
    rw [List.length_append, List.length_singleton, Nat.add_sub_cancel]
    exact (stands.drop 1).current_eq ends
  prev := stands.prev_eq

/-- The start of a token list stands before its first token. -/
theorem standsAt_ofTokens
    {body : List Token}
    {stop : Token}
    (noEnd : ∀ token ∈ body, token.kind ≠ .endOfInput)
    (ends : stop.kind = .endOfInput) :
    (ofTokens (body ++ [stop])).StandsAt body stop 0 where
  bound := Nat.zero_le _
  prev := rfl
  rest := rest_ofTokens noEnd ends
  stop := by
    have none : body.find? (·.kind = .endOfInput) = none := by simpa using noEnd
    simp [ofTokens, List.find?_append, none, ends]

end Cursor

/-! ## Token lists -/

namespace Parser

variable {body : List Token} {stop : Token}

/-- A construct is read from one index to another, which lies further on if reading
succeeds, and leaves as many parentheses open as it found. -/
theorem Construct.exists_standsAt
    {cursor : Cursor}
    {index : Nat}
    (construct : Construct)
    (stands : cursor.StandsAt body stop index) :
    ∃ behind, (construct.read cursor).run.cursor.StandsAt body stop behind ∧
      (construct.read cursor).run.cursor.parens = cursor.parens ∧ index ≤ behind ∧
      ((construct.read cursor).run.isOk = true → index < behind) := by
  obtain ⟨tokens, passes, promised⟩ :=
    (construct.read cursor).exists_passes (construct.advances cursor)
  refine ⟨_, stands.passes passes, passes.parens, Nat.le_add_right _ _, ?_⟩
  intro done
  have positive := List.length_pos_iff.mpr (promised done)
  omega

/-- A construct is read by the operations on cursors. -/
theorem Construct.reached (construct : Construct) (cursor : Cursor) :
    cursor.Reached (construct.read cursor).run.cursor := by
  obtain ⟨tokens, passes, -⟩ := construct.advances cursor
  exact Cursor.Reached.start.passes passes

/-- Each round leads from one index to a later one, with no parenthesis open. -/
theorem Rounds.exists_standsAt
    {cursor last : Cursor}
    {rounds : List Round}
    {round : Round}
    {index : Nat}
    (read : Rounds cursor rounds last)
    (stands : cursor.StandsAt body stop index)
    (member : round ∈ rounds) :
    ∃ first behind, first < behind ∧ cursor.Reached round.start ∧
      round.start.StandsAt body stop first ∧ round.next.StandsAt body stop behind ∧
      round.next.parens = cursor.parens := by
  obtain ⟨before, tokens, passes, nonempty, passes'⟩ := read.exists_passes_of_mem member
  have begun := stands.passes passes
  have positive := List.length_pos_iff.mpr nonempty
  exact ⟨_, _, by omega, Cursor.Reached.start.passes passes, begun, begun.passes passes',
    passes'.parens.trans passes.parens⟩

end Parser

/-- A token list that its only end of input closes is read in finitely many rounds, up to
that end and with no parenthesis open; each round passes a token.  All that can be seen on
the way lies in the list.  Each construct is read onward, past a token if this succeeds,
and leaves as many parentheses open as it found. -/
theorem parsing_ends_in_bounds
    (body : List Token)
    (stop : Token)
    (noEnd : ∀ token ∈ body, token.kind ≠ .endOfInput)
    (ends : stop.kind = .endOfInput) :
    (∃ rounds last,
      Parser.Rounds (.ofTokens (body ++ [stop])) rounds last ∧
      Program.ofTokens (body ++ [stop]) = .ofRounds rounds ∧
      last.StandsAt body stop body.length ∧ last.kind = .endOfInput ∧ last.parens = 0 ∧
      ∀ round ∈ rounds, ∃ first behind, first < behind ∧
        Cursor.Reached (.ofTokens (body ++ [stop])) round.start ∧
        round.start.StandsAt body stop first ∧ round.next.StandsAt body stop behind ∧
        round.next.parens = 0) ∧
    (∀ cursor, Cursor.Reached (.ofTokens (body ++ [stop])) cursor →
      ∃ index, cursor.StandsAt body stop index ∧ cursor.Sees (body ++ [stop]) index) ∧
    (∀ (construct : Parser.Construct) cursor index, cursor.StandsAt body stop index →
      cursor.Reached (construct.read cursor).run.cursor ∧
      ∃ behind, (construct.read cursor).run.cursor.StandsAt body stop behind ∧
        (construct.read cursor).run.cursor.parens = cursor.parens ∧ index ≤ behind ∧
        ((construct.read cursor).run.isOk = true → index < behind)) := by
  have begins := Cursor.standsAt_ofTokens noEnd ends
  refine ⟨?_, ?_, ?_⟩
  · obtain ⟨rounds, last, read⟩ := Parser.exists_rounds (.ofTokens (body ++ [stop]))
    obtain ⟨ended, tokens, passes⟩ := read.exists_passes
    have all : tokens = body := by
      rw [← Cursor.rest_ofTokens noEnd ends, passes.rest, ended, List.append_nil]
    have finish := begins.passes passes
    rw [all, Nat.zero_add] at finish
    refine ⟨rounds, last, read, read.program_eq, finish, ?_, passes.parens, ?_⟩
    · rw [Cursor.kind, Cursor.current, ended]
      rfl
    · intro round member
      exact read.exists_standsAt begins member
  · intro cursor reached
    obtain ⟨index, stands⟩ := reached.exists_standsAt begins
    exact ⟨index, stands, stands.sees ends⟩
  · intro construct cursor index stands
    exact ⟨construct.reached cursor, construct.exists_standsAt stands⟩

/-- A semicolon where an operand is missing, behind a parenthesis: reading fails there,
recovers behind the semicolon, and has then come to the end. -/
theorem parsing_ends_in_bounds_unclosed :
    let body : List Token := [⟨.leftParen, "(", ⟨1, 1, 0⟩⟩, ⟨.semicolon, ";", ⟨1, 2, 1⟩⟩]
    let stop : Token := .endAt ⟨1, 3, 2⟩
    (Program.ofTokens (body ++ [stop])).errors.length = 1 ∧
    (∃ rounds last,
      Parser.Rounds (.ofTokens (body ++ [stop])) rounds last ∧
      Program.ofTokens (body ++ [stop]) = .ofRounds rounds ∧
      last.StandsAt body stop 2 ∧ last.parens = 0) := by
  intro body stop
  obtain ⟨⟨rounds, last, read, equal, stands, -, closed, -⟩, -, -⟩ :=
    parsing_ends_in_bounds body stop (by decide) (by decide)
  exact ⟨by decide +kernel, rounds, last, read, equal, stands, closed⟩

end Siren
