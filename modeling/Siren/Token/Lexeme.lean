import Siren.Text.Digits
import Siren.Token

/-!
# Lexemes

`recognise` finds the lexeme at the start of a text: a run of blanks, a line
comment, a symbol, a number or a word.  Longer symbols are tried before their
first parts, so the lexeme is the longest one that stands there.
-/

namespace Siren
namespace Lexeme

/-- The blank bytes: tab, line feed, form feed, carriage return and space. -/
def isBlank (byte : UInt8) : Bool :=
  byte = 9 || byte = 10 || byte = 12 || byte = 13 || byte = 32

/-- The bytes that may start a word: ASCII letters and the underscore. -/
def isWordStart (byte : UInt8) : Bool :=
  (65 ≤ byte && byte ≤ 90) || (97 ≤ byte && byte ≤ 122) || byte = 95

/-- The bytes that may continue a word. -/
def isWordByte (byte : UInt8) : Bool :=
  isWordStart byte || Text.isDigit byte

/-- The kinds whose only lexeme is their name, a symbol before its own first
part. -/
def symbols : List Kind :=
  [.lessEqual, .greaterEqual, .equal, .notEqual, .assign, .plus, .minus, .star,
    .slash, .bang, .less, .greater, .semicolon, .comma, .leftParen, .rightParen,
    .leftBrace, .rightBrace]

/-- What stands at the start of a text. -/
inductive Found where
  /-- The text is empty. -/
  | nothing
  /-- Blanks or a comment, which separate tokens. -/
  | gap (lexeme : Text)
  /-- The lexeme of a token. -/
  | token (kind : Kind) (lexeme : Text)
  /-- A byte that starts no lexeme. -/
  | illegal (byte : UInt8)
  deriving DecidableEq, Repr

/-- The kind of a word: a reserved word is its own kind. -/
def wordKind (word : Text) : Kind :=
  (Kind.ofWord? word).getD .identifier

/-- The lexeme at the start of a text. -/
def recognise : Text → Found
  | [] => .nothing
  | byte :: rest =>
    let text : Text := byte :: rest
    if isBlank byte then
      .gap (text.takeWhile isBlank)
    else if text.startsWith "//" then
      .gap (text.takeWhile (· ≠ Text.lineFeed))
    else
      match symbols.find? fun kind => text.startsWith kind.name with
      | some kind => .token kind kind.name
      | none =>
        if Text.isDigit byte then
          .token .integer (text.takeWhile Text.isDigit)
        else if isWordStart byte then
          .token (wordKind (text.takeWhile isWordByte)) (text.takeWhile isWordByte)
        else
          .illegal byte

/-- The number of bytes that the lexeme takes up. -/
def Found.length : Found → Nat
  | .nothing => 0
  | .gap lexeme => lexeme.length
  | .token _ lexeme => lexeme.length
  | .illegal _ => 1

@[simp] theorem recognise_nil : recognise [] = .nothing := rfl

/-- Every symbol has a spelling. -/
theorem name_ne_nil_of_mem_symbols {kind : Kind} (member : kind ∈ symbols) :
    kind.name ≠ [] := by
  revert kind
  decide

/-- No lexeme reaches past the end of the text. -/
theorem length_recognise_le (text : Text) :
    (recognise text).length ≤ text.length := by
  cases text with
  | nil => simp [Found.length]
  | cons byte rest =>
      simp only [recognise]
      split
      · exact (List.takeWhile_sublist _).length_le
      · split
        · exact (List.takeWhile_sublist _).length_le
        · split
          · rename_i kind found
            have starts := List.find?_some found
            exact (List.isPrefixOf_iff_prefix.mp starts).length_le
          · split
            · exact (List.takeWhile_sublist _).length_le
            · split
              · exact (List.takeWhile_sublist _).length_le
              · simp [Found.length]

/-- A nonempty text starts with a lexeme of at least one byte. -/
theorem length_recognise_pos (byte : UInt8) (rest : Text) :
    0 < (recognise (byte :: rest)).length := by
  simp only [recognise]
  split
  · rename_i blank
    simp [Found.length, blank]
  · split
    · rename_i comment
      have first : byte = 47 := by
        have starts := List.isPrefixOf_iff_prefix.mp comment
        have head : (Text.ofString "//").head? = some byte := by
          obtain ⟨rest, equal⟩ := starts
          rw [show Text.ofString "//" = [47, 47] from by decide] at equal ⊢
          simp only [List.cons_append, List.cons.injEq] at equal
          simp [equal.1]
        have spelled : (Text.ofString "//").head? = some 47 := by decide
        exact Option.some.inj (head.symm.trans spelled)
      have other : (byte ≠ Text.lineFeed) := by
        rw [first]
        decide
      simp [Found.length, other]
    · split
      · rename_i kind found
        have member := List.mem_of_find?_eq_some found
        exact List.length_pos_iff.mpr (name_ne_nil_of_mem_symbols member)
      · split
        · rename_i digit
          simp [Found.length, digit]
        · split
          · rename_i letter
            simp [Found.length, isWordByte, letter]
          · simp [Found.length]

/-- A lexeme has at least one byte and stays within the text. -/
theorem length_recognise (text : Text) (found : recognise text ≠ .nothing) :
    0 < (recognise text).length ∧ (recognise text).length ≤ text.length := by
  cases text with
  | nil => simp at found
  | cons byte rest =>
      exact ⟨length_recognise_pos byte rest, length_recognise_le (byte :: rest)⟩

/-- A gap has at least one byte and stays within the text. -/
theorem length_gap {text lexeme : Text} (found : recognise text = .gap lexeme) :
    0 < lexeme.length ∧ lexeme.length ≤ text.length := by
  have bounds := length_recognise text (by simp [found])
  rwa [found] at bounds

/-- The lexeme of a token has at least one byte and stays within the text. -/
theorem length_token {text lexeme : Text} {kind : Kind}
    (found : recognise text = .token kind lexeme) :
    0 < lexeme.length ∧ lexeme.length ≤ text.length := by
  have bounds := length_recognise text (by simp [found])
  rwa [found] at bounds

end Lexeme
end Siren
