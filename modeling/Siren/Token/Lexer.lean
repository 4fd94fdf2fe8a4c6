import Siren.Token.Lexeme

/-!
# The token list of a source text

A lexer is a place in a source text together with the kind of the last token,
which decides whether a minus sign directly before digits belongs to the
number.  `next` gives the token at that place, and `tokenize` all of them up to
the end of the input.
-/

namespace Siren

/-- A place in a source text: what is left of it, the position of the first
byte left, and the kind of the last token. -/
structure Lexer where
  rest : Text
  pos : Position
  last : Kind
  deriving DecidableEq, Repr

namespace Lexer

open Lexeme

/-- The start of a source text, where an operand may stand. -/
def ofText (source : Text) : Lexer :=
  ⟨source, .start, .endOfInput⟩

/-- The lexer after `count` more bytes. -/
def skip (lexer : Lexer) (count : Nat) : Lexer :=
  ⟨lexer.rest.drop count, lexer.pos.advance (lexer.rest.take count), lexer.last⟩

/-- The token of `count` bytes at this place, and the lexer after it. -/
def emit (lexer : Lexer) (kind : Kind) (lexeme : Text) (count : Nat) :
    Token × Lexer :=
  (⟨kind, lexeme, lexer.pos⟩, ⟨lexer.rest.drop count,
    lexer.pos.advance (lexer.rest.take count), kind⟩)

/-- The code point with the number of a byte, in UTF-8. -/
def codePoint (byte : UInt8) : Text :=
  String.utf8EncodeChar (Char.ofNat byte.toNat)

/-- A minus sign with the digits directly after it, where an operand must
stand. -/
def signed? (lexer : Lexer) : Option Text :=
  match lexer.rest with
  | sign :: rest =>
    if sign = 45 && lexer.last.expectsOperand && rest.head?.any Text.isDigit then
      some (sign :: rest.takeWhile Text.isDigit)
    else
      none
  | [] => none

@[simp] theorem length_rest_skip (lexer : Lexer) (count : Nat) :
    (lexer.skip count).rest.length = lexer.rest.length - count := by
  simp [skip]

/-- The token at this place, after blanks and comments, and the lexer after
it. -/
def next (lexer : Lexer) : Token × Lexer :=
  match lexer.signed? with
  | some lexeme => lexer.emit .integer lexeme lexeme.length
  | none =>
    match found : recognise lexer.rest with
    | .nothing => lexer.emit .endOfInput [] 0
    | .gap lexeme =>
      have := length_gap found
      next (lexer.skip lexeme.length)
    | .token kind lexeme => lexer.emit kind lexeme lexeme.length
    | .illegal byte => lexer.emit .illegal (codePoint byte) 1
termination_by lexer.rest.length
decreasing_by
  rw [length_rest_skip]
  omega

/-- The token at this place, which stays the next one. -/
def peek (lexer : Lexer) : Token :=
  lexer.next.1

/-- The end of the input has no symbol. -/
theorem ne_endOfInput_of_mem_symbols {kind : Kind} (member : kind ∈ symbols) :
    kind ≠ .endOfInput := by
  revert kind
  decide

/-- No symbol, number or word is the end of the input. -/
theorem kind_ne_endOfInput_of_recognise {text : Text} {kind : Kind} {lexeme : Text}
    (found : recognise text = .token kind lexeme) : kind ≠ .endOfInput := by
  cases text with
  | nil => simp at found
  | cons byte rest =>
      simp only [recognise] at found
      split at found
      · simp at found
      · split at found
        · simp at found
        · split at found
          · rename_i symbol member
            have listed := List.mem_of_find?_eq_some member
            simp only [Found.token.injEq] at found
            rw [← found.1]
            exact ne_endOfInput_of_mem_symbols listed
          · split at found
            · simp only [Found.token.injEq] at found
              simp [← found.1]
            · split at found
              · simp only [Found.token.injEq] at found
                rw [← found.1, wordKind]
                cases word : Kind.ofWord? (List.takeWhile isWordByte (byte :: rest)) with
                | none => simp
                | some kind =>
                    have listed := List.mem_of_find?_eq_some word
                    rintro rfl
                    simp at listed
              · simp at found

/-- Every token but the end of the input takes up some of the text. -/
theorem length_rest_next_lt (lexer : Lexer)
    (more : lexer.next.1.kind ≠ .endOfInput) :
    lexer.next.2.rest.length < lexer.rest.length := by
  fun_induction next lexer with
  | case1 lexer lexeme signed =>
      unfold signed? at signed
      split at signed
      · rename_i sign rest equal
        split at signed
        · simp only [Option.some.injEq] at signed
          simp only [emit, equal, ← signed, List.length_cons, List.length_drop]
          omega
        · simp at signed
      · simp at signed
  | case2 => simp [emit] at more
  | case3 lexer _ lexeme found _ hypothesis =>
      have shorter := hypothesis more
      rw [length_rest_skip] at shorter
      omega
  | case4 lexer _ kind lexeme found =>
      have length := length_token found
      simp only [emit, List.length_drop]
      omega
  | case5 lexer _ byte found =>
      cases equal : lexer.rest with
      | nil => simp [equal] at found
      | cons byte rest => simp [emit, equal]

/-- Every token from this place up to and including the end of the input, and
the lexer at the end. -/
def tokenize (lexer : Lexer) : List Token × Lexer :=
  if lexer.next.1.kind = .endOfInput then
    ([lexer.next.1], lexer.next.2)
  else
    let rest := lexer.next.2.tokenize
    (lexer.next.1 :: rest.1, rest.2)
termination_by lexer.rest.length
decreasing_by
  exact lexer.length_rest_next_lt (by assumption)

end Lexer

/-- The tokens of a source text, closed by the end of the input. -/
def Token.ofText (source : Text) : List Token :=
  (Lexer.ofText source).tokenize.1

end Siren
