import Siren.SyntaxError
import Siren.Token.Cursor

/-!
# Results of reading a construct

Reading a construct at a cursor either gives a value and the cursor after it,
or a syntax error and the cursor where reading stopped.  The type records how
far the cursor moved: never back, and on success by at least a given number of
tokens.
-/

namespace Siren

/-- The result of reading at `start`, which passes at least `least` tokens when
it succeeds. -/
inductive Parsed (least : Nat) (α : Type) (start : Cursor) where
  | done (value : α) (next : Cursor) (progress : next.left + least ≤ start.left)
  | failed (error : SyntaxError) (stop : Cursor) (bound : stop.left ≤ start.left)

namespace Parsed

variable {α β : Type} {least more : Nat} {start : Cursor}

/-- A value that takes no tokens. -/
def pure (value : α) (start : Cursor) : Parsed 0 α start :=
  .done value start (Nat.le_refl _)

/-- A complaint about the next token. -/
def complain (start : Cursor) (complaint : Complaint) : Parsed least α start :=
  .failed (.about start.current complaint) start (Nat.le_refl _)

/-- The result with its value changed. -/
def map (change : α → β) : Parsed least α start → Parsed least β start
  | .done value next progress => .done (change value) next progress
  | .failed error stop bound => .failed error stop bound

/-- Reads on after a value, unless reading it failed. -/
def andThen (first : Parsed least α start)
    (second : (value : α) → (next : Cursor) → next.left + least ≤ start.left →
      Parsed more β next) : Parsed least β start :=
  match first with
  | .done value next progress =>
    match second value next progress with
    | .done result after further => .done result after (by omega)
    | .failed error stop bound => .failed error stop (by omega)
  | .failed error stop bound => .failed error stop bound

/-- The result seen from a cursor before the token that was read first. -/
def after {next : Cursor} (result : Parsed least α next)
    (shorter : next.left + 1 ≤ start.left) : Parsed 1 α start :=
  match result with
  | .done value after progress => .done value after (by omega)
  | .failed error stop bound => .failed error stop (by omega)

/-- The result seen from an earlier cursor. -/
def since {next : Cursor} (result : Parsed least α next)
    (earlier : next.left ≤ start.left) : Parsed least α start :=
  match result with
  | .done value after progress => .done value after (by omega)
  | .failed error stop bound => .failed error stop (by omega)

/-- The result without the promise of progress. -/
def relax : Parsed least α start → Parsed 0 α start
  | .done value next progress => .done value next (by omega)
  | .failed error stop bound => .failed error stop bound

/-- The result with one parenthesis less open, whether reading failed or
not. -/
def leave : Parsed least α start → Parsed least α start
  | .done value next progress => .done value next.leave progress
  | .failed error stop bound => .failed error stop.leave bound

/-- The result with a number of parentheses open, whether reading failed or
not. -/
def withParens (parens : Nat) : Parsed least α start → Parsed least α start
  | .done value next progress => .done value (next.withParens parens) progress
  | .failed error stop bound => .failed error (stop.withParens parens) bound

end Parsed

namespace Cursor

/-- Reads a token of a kind. -/
def expect (cursor : Cursor) (wanted : Kind) : Parsed 1 Token cursor :=
  match cursor.front with
  | .token token next shorter =>
    if token.kind = wanted then
      .done token next shorter
    else
      .complain cursor (.missing wanted cursor.current)
  | .atEnd => .complain cursor (.missing wanted cursor.current)

end Cursor
end Siren
