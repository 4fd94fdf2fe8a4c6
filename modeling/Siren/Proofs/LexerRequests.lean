import Siren.Proofs.TokenLayout

/-!
# Requests to a lexer

A lexer can be asked for its next token, for a look at this token, and for all tokens that
are left.  Whatever it is asked, in whatever order, it answers as a cursor over the token
list of its source does: the text that is left, the position and the last kind together
stand for a place in that list.  A look puts all three back, and from the end of the input
on every answer is this token again.
-/

namespace Siren
namespace Lexer

/-- What can be asked of a lexer. -/
inductive Request where
  | next
  | peek
  | tokenize
  deriving DecidableEq, Repr

/-- The tokens that a lexer answers with, and the lexer after it.  A look at the next
token puts back what reading it changed. -/
def answer (lexer : Lexer) : Request → List Token × Lexer
  | .next => ([lexer.next.1], lexer.next.2)
  | .peek =>
    ([lexer.peek],
      { lexer.next.2 with rest := lexer.rest, pos := lexer.pos, last := lexer.last })
  | .tokenize => lexer.tokenize

/-- The answers to requests in a row, and the lexer after them. -/
def answers (lexer : Lexer) : List Request → List (List Token) × Lexer
  | [] => ([], lexer)
  | request :: requests =>
    let (tokens, after) := lexer.answer request
    let (more, last) := after.answers requests
    (tokens :: more, last)

/-- The place of the end of the input in a token list. -/
def stopPlace (tokens : List Token) : Nat :=
  tokens.findIdx (·.kind = .endOfInput)

/-- The tokens that a cursor at a place of a token list answers with, and its place after
it.  It moves on by one token, except from the end of the input, or to the end of the input
at once. -/
def Request.atPlace (tokens : List Token) (place : Nat) : Request → List Token × Nat
  | .next =>
    (tokens[place]?.toList, if place = stopPlace tokens then place else place + 1)
  | .peek => (tokens[place]?.toList, place)
  | .tokenize => (tokens.drop place, stopPlace tokens)

/-- The answers of a cursor to requests in a row, and its place after them. -/
def Request.allAtPlace (tokens : List Token) (place : Nat) :
    List Request → List (List Token) × Nat
  | [] => ([], place)
  | request :: requests =>
    let (answered, after) := request.atPlace tokens place
    let (more, last) := allAtPlace tokens after requests
    (answered :: more, last)

variable {words : List Token} {stop : Position} {place : Nat} {lexer : Lexer}

/-! ## The end of the input -/

/-- The lexer at the end of its source. -/
def ended (stop : Position) : Lexer :=
  ⟨[], stop, .endOfInput⟩

/-- At its end a lexer stays as it is. -/
theorem next_ended (stop : Position) : (ended stop).next = (.endAt stop, ended stop) := by
  rw [next_eq]
  rfl

theorem tokenize_ended (stop : Position) :
    (ended stop).tokenize = ([.endAt stop], ended stop) := by
  rw [tokenize, next_ended]
  rfl

/-- The end of the input is answered by a lexer that is then at its end. -/
theorem next_of_ended (lexer : Lexer) (ends : lexer.next.1.kind = .endOfInput) :
    ∃ stop, lexer.next = (.endAt stop, ended stop) := by
  have takes := lexer.takes_next
  generalize lexer.next = result at takes ends
  cases takes with
  | stop _ => exact ⟨_, rfl⟩
  | word _ _ _ _ notEnd _ => exact absurd ends notEnd

/-- All tokens end with the end of the input, which is the only one of its kind. -/
theorem exists_tokenize_eq (lexer : Lexer) :
    ∃ words stop, lexer.tokenize = (words ++ [.endAt stop], ended stop) ∧
      ∀ token ∈ words, token.kind ≠ .endOfInput := by
  rw [tokenize]
  split
  · rename_i ends
    obtain ⟨stop, equal⟩ := lexer.next_of_ended ends
    rw [equal]
    exact ⟨[], stop, rfl, List.forall_mem_nil _⟩
  · rename_i more
    have shorter := lexer.length_rest_next_lt more
    obtain ⟨words, stop, equal, others⟩ := lexer.next.2.exists_tokenize_eq
    rw [equal]
    exact ⟨lexer.next.1 :: words, stop, rfl, List.forall_mem_cons.mpr ⟨more, others⟩⟩
termination_by lexer.rest.length

theorem stopPlace_eq (others : ∀ token ∈ words, token.kind ≠ .endOfInput) :
    stopPlace (words ++ [.endAt stop]) = words.length := by
  have none : words.findIdx (·.kind = .endOfInput) = words.length :=
    List.findIdx_eq_length.mpr fun token member => by simpa using others token member
  rw [stopPlace, List.findIdx_append, none, if_neg (Nat.lt_irrefl _)]
  exact Nat.zero_add _

/-! ## Places -/

/-- The lexer stands at a place of a token list: it reads the tokens from there on. -/
def StandsAt (words : List Token) (stop : Position) (place : Nat) (lexer : Lexer) : Prop :=
  lexer.tokenize = ((words ++ [Token.endAt stop]).drop place, ended stop)

theorem standsAt_ended (words : List Token) (stop : Position) :
    StandsAt words stop words.length (ended stop) := by
  rw [StandsAt, tokenize_ended, List.drop_left]

namespace StandsAt

theorem lt_length (stands : StandsAt words stop place lexer) :
    place < (words ++ [Token.endAt stop]).length := by
  obtain ⟨words', stop', equal, -⟩ := lexer.exists_tokenize_eq
  by_contra behind
  rw [StandsAt, List.drop_eq_nil_of_le (Nat.le_of_not_lt behind), equal] at stands
  simp at stands

/-- The next token is the one at the place of the lexer, which then stands at the next
place, or still at the end of the input. -/
theorem next (stands : StandsAt words stop place lexer) :
    (words ++ [Token.endAt stop])[place]? = some lexer.next.1 ∧
      StandsAt words stop (if place = words.length then place else place + 1) lexer.next.2 := by
  have bound := stands.lt_length
  rw [StandsAt, tokenize, List.drop_eq_getElem_cons bound] at stands
  rw [List.getElem?_eq_getElem bound, Option.some.injEq]
  rw [List.length_append, List.length_singleton] at bound
  split at stands
  · obtain ⟨tokens, after⟩ := Prod.mk.inj stands
    obtain ⟨token, last⟩ := List.cons.inj tokens
    have passed := List.drop_eq_nil_iff.mp last.symm
    rw [List.length_append, List.length_singleton] at passed
    obtain rfl : place = words.length := by omega
    rw [if_pos rfl, after]
    exact ⟨token.symm, standsAt_ended words stop⟩
  · rename_i more
    obtain ⟨tokens, after⟩ := Prod.mk.inj stands
    obtain ⟨token, later⟩ := List.cons.inj tokens
    have inside : place ≠ words.length := by
      rintro rfl
      rw [List.getElem_append_right (Nat.le_refl _)] at token
      simp [token, Token.endAt] at more
    rw [if_neg inside]
    exact ⟨token.symm, Prod.ext later after⟩

/-- A request is answered as by a cursor at the place of the lexer, and the lexer then
stands at the place of the cursor. -/
theorem answer
    (others : ∀ token ∈ words, token.kind ≠ .endOfInput)
    (stands : StandsAt words stop place lexer)
    (request : Request) :
    (lexer.answer request).1 = (request.atPlace (words ++ [.endAt stop]) place).1 ∧
      StandsAt words stop (request.atPlace (words ++ [.endAt stop]) place).2
        (lexer.answer request).2 := by
  obtain ⟨token, after⟩ := stands.next
  cases request with
  | next =>
      rw [Request.atPlace, stopPlace_eq others, token]
      exact ⟨rfl, after⟩
  | peek =>
      rw [Request.atPlace, token]
      exact ⟨rfl, stands⟩
  | tokenize =>
      rw [Request.atPlace, stopPlace_eq others, Lexer.answer, stands]
      exact ⟨rfl, standsAt_ended words stop⟩

/-- Requests in a row are answered as by a cursor. -/
theorem answers
    (others : ∀ token ∈ words, token.kind ≠ .endOfInput)
    (stands : StandsAt words stop place lexer)
    (requests : List Request) :
    (lexer.answers requests).1 = (Request.allAtPlace (words ++ [.endAt stop]) place requests).1 ∧
      StandsAt words stop (Request.allAtPlace (words ++ [.endAt stop]) place requests).2
        (lexer.answers requests).2 := by
  induction requests generalizing place lexer with
  | nil => exact ⟨rfl, stands⟩
  | cons request requests inductionHypothesis =>
      obtain ⟨tokens, after⟩ := stands.answer others request
      obtain ⟨more, last⟩ := inductionHypothesis after
      exact ⟨congrArg₂ List.cons tokens more, last⟩

end StandsAt

/-- A lexer at the start of a source stands at the first token of its token list. -/
theorem exists_standsAt_ofText (source : Text) :
    ∃ words, Token.ofText source = words ++ [.endAt (.behind source)] ∧
      (∀ token ∈ words, token.kind ≠ .endOfInput) ∧
      StandsAt words (.behind source) 0 (ofText source) := by
  obtain ⟨words, stop, equal, others⟩ := (ofText source).exists_tokenize_eq
  have layout : Layout [] (Token.ofText source) source := layout_tokenize rfl
  have tokens : Token.ofText source = words ++ [.endAt stop] := congrArg Prod.fst equal
  have place : stop = .behind source :=
    layout.pos_of_endOfInput (tokens ▸ List.mem_append_right words List.mem_cons_self) rfl
  rw [place] at equal tokens
  exact ⟨words, tokens, others, equal⟩

/-! ## Looks and the end of the input -/

/-- Looks at the next token leave out nothing of the other answers and change nothing of
the lexer. -/
theorem answers_filter_peek (lexer : Lexer) (requests : List Request) :
    ((requests.zip (lexer.answers requests).1).filter (·.1 ≠ .peek)).map (·.2) =
        (lexer.answers (requests.filter (· ≠ .peek))).1 ∧
      (lexer.answers requests).2 = (lexer.answers (requests.filter (· ≠ .peek))).2 := by
  induction requests generalizing lexer with
  | nil => exact ⟨rfl, rfl⟩
  | cons request requests inductionHypothesis =>
      obtain ⟨more, last⟩ := inductionHypothesis (lexer.answer request).2
      cases request with
      | peek => exact ⟨more, last⟩
      | next | tokenize => exact ⟨congrArg (_ :: ·) more, last⟩

/-- A cursor at the end of the input answers with it and nothing else. -/
theorem Request.allAtPlace_stop
    (others : ∀ token ∈ words, token.kind ≠ .endOfInput)
    (requests : List Request) :
    (Request.allAtPlace (words ++ [.endAt stop]) words.length requests).1 =
      List.replicate requests.length [.endAt stop] := by
  induction requests with
  | nil => rfl
  | cons request requests inductionHypothesis =>
      have stays : request.atPlace (words ++ [.endAt stop]) words.length =
          ([.endAt stop], words.length) := by
        cases request with
        | next => simp [Request.atPlace, stopPlace_eq others]
        | peek => simp [Request.atPlace]
        | tokenize => simp [Request.atPlace, stopPlace_eq others]
      rw [Request.allAtPlace, stays]
      exact congrArg ([.endAt stop] :: ·) inductionHypothesis

/-- A lexer answers requests as a cursor over the token list of its source does: the next
token is the one at the cursor, which moves on unless it is the end of the input; a look is
the same token and moves nothing; and all tokens are those from the cursor on, which then
stands at the end of the input.  Without the looks the other answers and the lexer behind
them are the same.  Once the cursor stands at the end of the input every further answer is
this one token, behind the last byte of the source. -/
theorem requests_are_answered_from_token_list
    (source : Text)
    (requests : List Request) :
    let tokens := Token.ofText source
    let answered := (ofText source).answers requests
    let cursor := Request.allAtPlace tokens 0 requests
    answered.1 = cursor.1 ∧ answered.2.tokenize.1 = tokens.drop cursor.2 ∧
      (let others := requests.filter (· ≠ .peek)
      ((requests.zip answered.1).filter (·.1 ≠ .peek)).map (·.2) =
          ((ofText source).answers others).1 ∧
        answered.2 = ((ofText source).answers others).2) ∧
      (cursor.2 = stopPlace tokens → ∀ later : List Request,
        (answered.2.answers later).1 =
          List.replicate later.length [.endAt (.behind source)]) := by
  intro tokens answered cursor
  obtain ⟨words, equal, others, stands⟩ := exists_standsAt_ofText source
  have tokens_eq : tokens = words ++ [.endAt (.behind source)] := equal
  obtain ⟨same, after⟩ := stands.answers others requests
  rw [← tokens_eq] at same after
  refine ⟨same, ?_, answers_filter_peek _ requests, fun reached later => ?_⟩
  · have left := congrArg Prod.fst after
    rwa [← tokens_eq] at left
  · change cursor.2 = stopPlace tokens at reached
    rw [reached, tokens_eq, stopPlace_eq others] at after
    rw [(after.answers others later).1, Request.allAtPlace_stop others]

/-- Behind a number a look does not join a minus sign to the digits after it. -/
theorem requests_are_answered_from_token_list_sign :
    let requests : List Request := [.next, .peek, .next, .peek, .tokenize]
    let answered := (ofText "5-3").answers requests
    (Request.allAtPlace (Token.ofText "5-3") 0 requests).2 = stopPlace (Token.ofText "5-3") ∧
      answered.1.map (·.map (·.kind)) =
        [[.integer], [.minus], [.minus], [.integer], [.integer, .endOfInput]] ∧
      (answered.2.answers [.next, .peek, .tokenize]).1 =
        [[.endAt ⟨1, 4, 3⟩], [.endAt ⟨1, 4, 3⟩], [.endAt ⟨1, 4, 3⟩]] := by
  intro requests answered
  have reached : (Request.allAtPlace (Token.ofText "5-3") 0 requests).2 =
      stopPlace (Token.ofText "5-3") := by
    decide +kernel
  refine ⟨reached, by decide +kernel, ?_⟩
  exact (requests_are_answered_from_token_list "5-3" requests).2.2.2 reached
    [.next, .peek, .tokenize]

end Lexer
end Siren
