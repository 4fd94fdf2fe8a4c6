import Siren.Position

/-!
# Tokens

A token is a lexeme of the source with its kind and the position of its first
byte.  The kinds fall into categories, and each has a name for messages.
-/

namespace Siren

/-- What a token is, in the order of the kinds' codes. -/
inductive Kind where
  | endOfInput
  | letWord
  | fnWord
  | returnWord
  | ifWord
  | elseWord
  | trueWord
  | falseWord
  | identifier
  | integer
  | assign
  | plus
  | minus
  | star
  | slash
  | bang
  | less
  | greater
  | lessEqual
  | greaterEqual
  | equal
  | notEqual
  | semicolon
  | comma
  | leftParen
  | rightParen
  | leftBrace
  | rightBrace
  | illegal
  deriving DecidableEq, Repr, Inhabited

/-- The group a kind belongs to. -/
inductive Category where
  | none
  | keyword
  | identifier
  | literal
  | operator
  | delimiter
  deriving DecidableEq, Repr, Inhabited

namespace Kind

/-- Every kind, in the order of the codes. -/
def all : List Kind :=
  [.endOfInput, .letWord, .fnWord, .returnWord, .ifWord, .elseWord, .trueWord,
    .falseWord, .identifier, .integer, .assign, .plus, .minus, .star, .slash,
    .bang, .less, .greater, .lessEqual, .greaterEqual, .equal, .notEqual,
    .semicolon, .comma, .leftParen, .rightParen, .leftBrace, .rightBrace,
    .illegal]

/-- The name of a kind in messages. -/
def name : Kind → Text
  | .endOfInput => "end of input"
  | .letWord => "let"
  | .fnWord => "fn"
  | .returnWord => "return"
  | .ifWord => "if"
  | .elseWord => "else"
  | .trueWord => "true"
  | .falseWord => "false"
  | .identifier => "identifier"
  | .integer => "integer"
  | .assign => "="
  | .plus => "+"
  | .minus => "-"
  | .star => "*"
  | .slash => "/"
  | .bang => "!"
  | .less => "<"
  | .greater => ">"
  | .lessEqual => "<="
  | .greaterEqual => ">="
  | .equal => "=="
  | .notEqual => "!="
  | .semicolon => ";"
  | .comma => ","
  | .leftParen => "("
  | .rightParen => ")"
  | .leftBrace => "\x7b"
  | .rightBrace => "\x7d"
  | .illegal => "illegal"

/-- The category of a kind. -/
def category : Kind → Category
  | .letWord | .fnWord | .returnWord | .ifWord | .elseWord | .trueWord
  | .falseWord => .keyword
  | .identifier => .identifier
  | .integer => .literal
  | .assign | .plus | .minus | .star | .slash | .bang | .less | .greater
  | .lessEqual | .greaterEqual | .equal | .notEqual => .operator
  | .semicolon | .comma | .leftParen | .rightParen | .leftBrace
  | .rightBrace => .delimiter
  | .endOfInput | .illegal => .none

/-- The kind of a reserved word. -/
def ofWord? (word : Text) : Option Kind :=
  [.letWord, .fnWord, .returnWord, .ifWord, .elseWord, .trueWord, .falseWord].find?
    fun kind => kind.name = word

/-- The kind with a code. -/
def ofCode? : Int → Option Kind
  | .ofNat code => all[code]?
  | .negSucc _ => none

/-- The name of the kind with a code, or a placeholder showing the code. -/
def nameOfCode (code : Int) : Text :=
  match ofCode? code with
  | some kind => kind.name
  | none => "UNKNOWN(" ++ Text.ofInt code ++ ")"

/-- The category of the kind with a code; an unused code has none. -/
def categoryOfCode (code : Int) : Category :=
  match ofCode? code with
  | some kind => kind.category
  | none => .none

/-- After these kinds an operand must follow, so a minus sign directly before
digits belongs to the number. -/
def expectsOperand : Kind → Bool
  | .endOfInput | .assign | .leftParen | .comma | .semicolon | .leftBrace
  | .plus | .minus | .star | .slash | .bang | .less | .greater | .lessEqual
  | .greaterEqual | .equal | .notEqual | .returnWord | .ifWord => true
  | _ => false

end Kind

namespace Category

/-- The number of a category. -/
def code : Category → Nat
  | .none => 0
  | .keyword => 1
  | .identifier => 2
  | .literal => 3
  | .operator => 4
  | .delimiter => 5

end Category

/-- A lexeme with its kind and the position of its first byte.  An illegal byte
has the code point of that number as its lexeme. -/
structure Token where
  kind : Kind
  lexeme : Text
  pos : Position
  deriving DecidableEq, Repr, Inhabited

namespace Token

/-- The token that closes every token list. -/
def endAt (pos : Position) : Token := ⟨.endOfInput, [], pos⟩

/-- The text of a token that stands for a value or a name; empty for the
others. -/
def literal (token : Token) : Text :=
  match token.kind with
  | .identifier | .integer | .trueWord | .falseWord => token.lexeme
  | _ => []

/-- A token on one line for display. -/
def text (token : Token) : Text :=
  let value : Text := if token.literal = [] then "nil" else "\"" ++ token.literal ++ "\""
  "T_\x7b" ++ token.kind.name ++ ", " ++ token.lexeme ++ ", " ++ value ++ ", " ++
    token.pos.text ++ "\x7d"

end Token
end Siren
