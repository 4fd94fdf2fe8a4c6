import Siren.Token

/-!
# Cursors over a token list

A cursor stands between the tokens already read and those ahead.  It ends at
the end of the input, which is never passed, and counts the parentheses that
are open around it.
-/

namespace Siren

/-- A place in a token list. -/
structure Cursor where
  /-- The token read last. -/
  prev : Option Token
  /-- The tokens ahead, without the end of the input. -/
  rest : List Token
  /-- The position of the end of the input. -/
  stop : Position
  /-- The number of parentheses open around this place. -/
  parens : Nat
  deriving DecidableEq, Repr

namespace Cursor

/-- The start of a token list, which its first end of input closes. -/
def ofTokens (tokens : List Token) : Cursor where
  prev := none
  rest := tokens.takeWhile (·.kind ≠ .endOfInput)
  stop := ((tokens.find? (·.kind = .endOfInput)).map Token.pos).getD .nowhere
  parens := 0

/-- The number of tokens ahead. -/
def left (cursor : Cursor) : Nat :=
  cursor.rest.length

/-- The next token: the end of the input once none is ahead. -/
def current (cursor : Cursor) : Token :=
  cursor.rest.headD (.endAt cursor.stop)

/-- The kind of the next token. -/
def kind (cursor : Cursor) : Kind :=
  cursor.current.kind

/-- Whether the token read last is of a kind. -/
def follows (cursor : Cursor) (kind : Kind) : Bool :=
  cursor.prev.any (·.kind = kind)

/-- What is ahead of a cursor: nothing, or a token and the cursor after it. -/
inductive Front (cursor : Cursor) where
  | atEnd
  | token (token : Token) (next : Cursor) (shorter : next.left + 1 ≤ cursor.left)

/-- What is ahead of this cursor. -/
def front : (cursor : Cursor) → Front cursor
  | ⟨_, [], _, _⟩ => .atEnd
  | ⟨_, token :: rest, stop, parens⟩ =>
    .token token ⟨some token, rest, stop, parens⟩ (by simp [left])

/-- The cursor after `count` more tokens. -/
def drop (cursor : Cursor) (count : Nat) : Cursor where
  prev := (cursor.rest.take count).getLast?.or cursor.prev
  rest := cursor.rest.drop count
  stop := cursor.stop
  parens := cursor.parens

/-- The cursor with one more parenthesis open. -/
def enter (cursor : Cursor) : Cursor :=
  { cursor with parens := cursor.parens + 1 }

/-- The cursor with one parenthesis less open. -/
def leave (cursor : Cursor) : Cursor :=
  { cursor with parens := cursor.parens - 1 }

/-- The cursor with a number of parentheses open. -/
def withParens (cursor : Cursor) (parens : Nat) : Cursor :=
  { cursor with parens }

/-- The cursor after the semicolons ahead. -/
def skipSemicolons (cursor : Cursor) : Cursor :=
  cursor.drop (cursor.rest.takeWhile (·.kind = .semicolon)).length

/-- The number of tokens up to and including the first semicolon outside of
braces, when `depth` braces are open. -/
def statementLength (depth : Nat) : List Token → Nat
  | [] => 0
  | token :: rest =>
    match token.kind with
    | .leftBrace => statementLength (depth + 1) rest + 1
    | .rightBrace => statementLength (depth - 1) rest + 1
    | .semicolon => if depth = 0 then 1 else statementLength depth rest + 1
    | _ => statementLength depth rest + 1

/-- The cursor after the next semicolon outside of braces, or at the end. -/
def recover (cursor : Cursor) : Cursor :=
  cursor.drop (statementLength 0 cursor.rest)

@[simp] theorem left_drop (cursor : Cursor) (count : Nat) :
    (cursor.drop count).left = cursor.left - count := by
  simp [drop, left]

@[simp] theorem left_enter (cursor : Cursor) : cursor.enter.left = cursor.left := rfl

@[simp] theorem left_leave (cursor : Cursor) : cursor.leave.left = cursor.left := rfl

@[simp] theorem left_withParens (cursor : Cursor) (parens : Nat) :
    (cursor.withParens parens).left = cursor.left := rfl

/-- Skipping semicolons never goes back. -/
theorem left_skipSemicolons_le (cursor : Cursor) :
    cursor.skipSemicolons.left ≤ cursor.left := by
  simp [skipSemicolons]

/-- A statement to skip has at least one token. -/
theorem statementLength_pos (depth : Nat) (token : Token) (rest : List Token) :
    0 < statementLength depth (token :: rest) := by
  unfold statementLength
  split
  · omega
  · omega
  · split <;> omega
  · omega

/-- Recovering never goes back. -/
theorem left_recover_le (cursor : Cursor) : cursor.recover.left ≤ cursor.left := by
  simp [recover]

/-- Recovering passes a token unless none is ahead. -/
theorem left_recover_lt (cursor : Cursor) (more : cursor.left ≠ 0) :
    cursor.recover.left < cursor.left := by
  cases equal : cursor.rest with
  | nil => simp [left, equal] at more
  | cons token rest =>
      have positive := statementLength_pos 0 token rest
      simp only [recover, left_drop, equal]
      omega

end Cursor
end Siren
