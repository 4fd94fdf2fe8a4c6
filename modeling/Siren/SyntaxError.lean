import Siren.Text.Blank
import Siren.Token

/-!
# Syntax errors

A syntax error says what is wrong at a token.  It is incomplete when that token
is the end of the input: then more text might still make the source valid.
-/

namespace Siren

namespace Token

/-- A token as messages name it. -/
def describe (token : Token) : Text :=
  match token.kind with
  | .endOfInput => token.kind.name
  | .identifier | .integer => token.kind.name ++ " `" ++ token.lexeme ++ "`"
  | _ => "`" ++ token.lexeme.trim ++ "`"

end Token

/-- What is wrong at a token. -/
inductive Complaint where
  /-- The input ends where an expression should start. -/
  | missingExpression
  /-- The token starts no expression. -/
  | unexpected (found : Token)
  /-- The token is no lexeme of the language. -/
  | illegalCharacter (lexeme : Text)
  /-- The integer does not fit into 64 bits. -/
  | outOfRange (lexeme : Text)
  /-- A token of another kind should stand here. -/
  | missing (wanted : Kind) (found : Token)
  /-- A statement is not closed before the token. -/
  | unclosedStatement (found : Token)
  /-- The parameter has been named before. -/
  | duplicateParameter (name : Text)
  /-- A complaint in its own words. -/
  | stated (message : Text)
  deriving DecidableEq, Repr

namespace Complaint

/-- The message for a missing token. -/
def missingMessage (wanted : Kind) (found : Token) : Text :=
  match wanted with
  | .rightParen => "Missing closing parenthesis"
  | .rightBrace => "Missing closing brace"
  | .leftBrace => "Missing opening brace"
  | .leftParen => "Missing opening parenthesis"
  | .assign => "Missing assignment operator"
  | .identifier =>
    if found.kind.category = .keyword then
      "Cannot use reserved keyword `" ++ found.lexeme ++ "` as identifier"
    else
      "Expected identifier, found " ++ found.describe
  | _ => "Expected " ++ wanted.name ++ ", found " ++ found.describe

/-- The message of a complaint. -/
def message : Complaint → Text
  | .missingExpression => "Missing expression"
  | .unexpected found => "Expected expression, found " ++ found.describe
  | .illegalCharacter lexeme => "Illegal character `" ++ lexeme ++ "`"
  | .outOfRange lexeme => "Integer literal " ++ lexeme ++ " out of range"
  | .missing wanted found => missingMessage wanted found
  | .unclosedStatement found => "Missing semicolon before " ++ found.describe
  | .duplicateParameter name => "Duplicate parameter `" ++ name ++ "`"
  | .stated message => message

end Complaint

/-- A complaint with the position of the token it is about. -/
structure SyntaxError where
  pos : Position
  complaint : Complaint
  incomplete : Bool
  deriving DecidableEq, Repr

namespace SyntaxError

/-- The complaint about a token. -/
def about (token : Token) (complaint : Complaint) : SyntaxError :=
  ⟨token.pos, complaint, token.kind = .endOfInput⟩

/-- The message of a syntax error without its position. -/
def message (error : SyntaxError) : Text :=
  error.complaint.message

/-- A syntax error with its position. -/
def text (error : SyntaxError) : Text :=
  error.message ++ " at line " ++ Text.ofInt error.pos.line ++ ", column " ++
    Text.ofInt error.pos.column

/-- A list of syntax errors in one line: the first one and the number of the
others. -/
def summary : List SyntaxError → Text
  | [] => "no errors"
  | [error] => error.text
  | error :: errors =>
    error.text ++ " (and " ++ Text.ofNat errors.length ++ " more errors)"

/-- Whether the source only ended too early.  Only the first error counts, as
later ones mostly follow from it. -/
def isIncomplete (errors : List SyntaxError) : Bool :=
  errors.head?.any (·.incomplete)

/-- Whether any of the errors is at the end of the input. -/
def anyIncomplete (errors : List SyntaxError) : Bool :=
  errors.any (·.incomplete)

end SyntaxError
end Siren
