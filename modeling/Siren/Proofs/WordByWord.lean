import Siren.Proofs.Decimal
import Siren.Proofs.LineBreaks
import Siren.Proofs.TokenLayout
import Siren.Proofs.WellFormedTrees

/-!
# Reading text word by word

A text that is written as lexemes and spaces is read piece by piece.  Each piece
yields its own words, provided that what follows does not go on with its last lexeme.
The tokens of a text without line feeds are all on one line, where positions do not
matter, so the words decide what the text stands for.
-/

namespace Siren

/-- A text without line feeds does not leave its line. -/
theorem Position.line_advance
    {text : Text}
    (oneLine : Text.lineFeed ∉ text)
    (position : Position) :
    (position.advance text).line = position.line := by
  rw [line_advance_eq_add, List.count_eq_zero.mpr oneLine]
  exact Int.add_zero position.line

/-! ## Lexemes before a rest -/

namespace Lexeme

/-- No word and no number goes on in the text. -/
def Delimits (rest : Text) : Prop :=
  ∀ byte ∈ rest.head?, isWordByte byte = false

theorem Delimits.isDigit
    {rest : Text}
    (delimits : Delimits rest) :
    ∀ byte ∈ rest.head?, Text.isDigit byte = false := by
  intro byte heads
  have word := delimits byte heads
  rw [isWordByte, Bool.or_eq_false_iff] at word
  exact word.2

theorem Delimits.nil : Delimits [] :=
  fun _ heads => nomatch heads

theorem Delimits.cons
    {first : UInt8}
    (other : isWordByte first = false)
    (rest : Text) :
    Delimits (first :: rest) := by
  rintro _ ⟨⟩
  exact other

theorem isWordByte_head_name :
    ∀ kind ∈ symbols, kind.name.head?.any (!isWordByte ·) = true := by
  decide

/-- Symbols delimit words. -/
theorem Delimits.symbol
    {kind : Kind}
    (member : kind ∈ symbols)
    (rest : Text) :
    Delimits (kind.name ++ rest) := by
  have visible := isWordByte_head_name kind member
  cases equal : kind.name with
  | nil =>
      rw [equal] at visible
      cases visible
  | cons first others =>
      rw [equal] at visible
      exact .cons (by simpa using visible) _

theorem head_of_startsWith
    {text : Text}
    {first : UInt8}
    {spelling : Text}
    (starts : Text.startsWith text (first :: spelling) = true) :
    text.head? = some first := by
  obtain ⟨more, rfl⟩ := List.isPrefixOf_iff_prefix.mp starts
  rfl

/-- What starts with a letter, an underscore or a digit is no symbol or comment. -/
theorem startsWith_of_isWordByte
    {byte : UInt8}
    (word : isWordByte byte = true)
    (rest : Text) :
    Text.startsWith (byte :: rest) "//" = false ∧
      (symbols.find? fun kind => Text.startsWith (byte :: rest) kind.name) = none := by
  have other (spelling : Text) (visible : spelling.head?.any (!isWordByte ·) = true) :
      Text.startsWith (byte :: rest) spelling = false := by
    rw [Bool.eq_false_iff]
    intro starts
    cases spelling with
    | nil => cases visible
    | cons first spelling =>
        obtain rfl : byte = first := Option.some.inj (head_of_startsWith starts)
        simp [word] at visible
  refine ⟨other _ (by decide), List.find?_eq_none.mpr fun kind member => ?_⟩
  rw [other _ (isWordByte_head_name kind member)]
  exact Bool.false_ne_true

theorem isBlank_of_isWordByte
    {byte : UInt8}
    (word : isWordByte byte = true) :
    isBlank byte = false := by
  simp only [isWordByte, isWordStart, isBlank, Text.isDigit, Bool.or_eq_true, Bool.and_eq_true,
    decide_eq_true_eq, Bool.or_eq_false_iff, decide_eq_false_iff_not, UInt8.le_iff_toNat_le,
    ← UInt8.toNat_inj, UInt8.toNat_ofNat] at word ⊢
  omega

theorem isDigit_of_isWordStart
    {byte : UInt8}
    (start : isWordStart byte = true) :
    Text.isDigit byte = false := by
  simp only [isWordStart, Text.isDigit, Bool.or_eq_true, Bool.and_eq_true, decide_eq_true_eq,
    Bool.and_eq_false_iff, decide_eq_false_iff_not, UInt8.le_iff_toNat_le, ← UInt8.toNat_inj,
    UInt8.toNat_ofNat] at start ⊢
  omega

theorem takeWhile_append_of_delimits
    {select : UInt8 → Bool}
    {text rest : Text}
    (whole : ∀ byte ∈ text, select byte = true)
    (stops : ∀ byte ∈ rest.head?, select byte = false) :
    (text ++ rest).takeWhile select = text := by
  rw [List.takeWhile_append_of_pos whole]
  cases rest with
  | nil => exact List.append_nil text
  | cons byte rest =>
      rw [List.takeWhile_cons_of_neg (by rw [stops byte rfl]; exact Bool.false_ne_true)]
      exact List.append_nil text

/-- A word is recognised before anything that does not go on with it. -/
theorem recognise_word
    {first : UInt8}
    {others rest : Text}
    (start : isWordStart first = true)
    (goesOn : others.all isWordByte = true)
    (delimits : Delimits rest) :
    recognise (first :: others ++ rest) =
      .token (wordKind (first :: others)) (first :: others) := by
  have word : isWordByte first = true := by rw [isWordByte, start, Bool.true_or]
  obtain ⟨comment, symbol⟩ := startsWith_of_isWordByte word (others ++ rest)
  have whole : (first :: others ++ rest).takeWhile isWordByte = first :: others :=
    takeWhile_append_of_delimits
      (List.forall_mem_cons.mpr ⟨word, List.all_eq_true.mp goesOn⟩) delimits
  rw [List.cons_append] at whole ⊢
  simp only [recognise, isBlank_of_isWordByte word, comment, symbol,
    isDigit_of_isWordStart start, start, whole]
  rfl

/-- A number is recognised before anything that does not go on with it. -/
theorem recognise_number
    {digits rest : Text}
    (nonempty : digits ≠ [])
    (isNumber : ∀ byte ∈ digits, Text.isDigit byte = true)
    (stops : ∀ byte ∈ rest.head?, Text.isDigit byte = false) :
    recognise (digits ++ rest) = .token .integer digits := by
  cases digits with
  | nil => exact absurd rfl nonempty
  | cons first others =>
      have digit := isNumber first List.mem_cons_self
      have word : isWordByte first = true := by rw [isWordByte, digit, Bool.or_true]
      obtain ⟨comment, symbol⟩ := startsWith_of_isWordByte word (others ++ rest)
      have whole : (first :: others ++ rest).takeWhile Text.isDigit = first :: others :=
        takeWhile_append_of_delimits isNumber stops
      rw [List.cons_append] at whole ⊢
      simp only [recognise, isBlank_of_isWordByte word, comment, symbol, digit, whole]
      rfl

end Lexeme

/-! ## Words of a text -/

/-- The only word of a kind. -/
def Kind.word (kind : Kind) : Word :=
  (kind, kind.name)

@[simp] theorem Kind.word_fst (kind : Kind) : kind.word.1 = kind := rfl

@[simp] theorem Kind.word_snd (kind : Kind) : kind.word.2 = kind.name := rfl

namespace Lexer

open Lexeme

/-- The kind of the last of some words after a token of a kind. -/
def lastKind (last : Kind) (words : List Word) : Kind :=
  words.foldl (fun _ word => word.1) last

theorem lastKind_append (last : Kind) (words words' : List Word) :
    lastKind last (words ++ words') = lastKind (lastKind last words) words' :=
  List.foldl_append

@[simp] theorem lastKind_append_singleton (last : Kind) (words : List Word) (word : Word) :
    lastKind last (words ++ [word]) = word.1 := by
  rw [lastKind_append]
  rfl

/-- A text is read as words, on the line where it starts and after a token of a kind,
and what follows it is left. -/
def Yields (last : Kind) (text : Text) (words : List Word) (rest : Text) : Prop :=
  ∀ pos, ∃ tokens pos',
    body ⟨text ++ rest, pos, last⟩ = tokens ++ body ⟨rest, pos', lastKind last words⟩ ∧
      tokens.map Token.word = words ∧ (∀ token ∈ tokens, token.pos.line = pos.line) ∧
      pos'.line = pos.line

namespace Yields

variable {last kind : Kind} {text text' rest : Text} {words words' : List Word}

theorem nil (last : Kind) (rest : Text) : Yields last [] [] rest :=
  fun pos => ⟨[], pos, rfl, rfl, List.forall_mem_nil _, rfl⟩

/-- Two texts in a row are read one after the other. -/
theorem append
    (first : Yields last text words (text' ++ rest))
    (second : Yields (lastKind last words) text' words' rest) :
    Yields last (text ++ text') (words ++ words') rest := by
  intro pos
  obtain ⟨tokens, between, read, rfl, line, line'⟩ := first pos
  obtain ⟨tokens', after, read', rfl, later, later'⟩ := second between
  refine ⟨tokens ++ tokens', after, ?_, List.map_append, ?_, later'.trans line'⟩
  · rw [List.append_assoc, read, read', lastKind_append, List.append_assoc]
  · intro token member
    rcases List.mem_append.mp member with earlier | behind
    · exact line token earlier
    · exact (later token behind).trans line'

/-- A space is passed. -/
theorem space (last : Kind) (rest : Text) : Yields last [Text.space] [] rest := by
  intro pos
  refine ⟨[], pos.step Text.space, ?_, rfl, List.forall_mem_nil _, rfl⟩
  rw [List.singleton_append, List.nil_append, body_eq, next_blank rfl, ← body_eq]
  rfl

/-- A lexeme that is the next token is read as its word. -/
theorem of_next
    (next : ∀ pos, Lexer.next ⟨text ++ rest, pos, last⟩ =
      (⟨kind, text, pos⟩, ⟨rest, pos.advance text, kind⟩))
    (inside : kind ≠ .endOfInput)
    (oneLine : Text.lineFeed ∉ text) :
    Yields last text [(kind, text)] rest := by
  intro pos
  refine ⟨[⟨kind, text, pos⟩], pos.advance text, ?_, rfl, ?_, Position.line_advance oneLine pos⟩
  · rw [body_eq, next, if_neg inside]
    rfl
  · rintro token (_ | ⟨_, ⟨⟩⟩)
    rfl

/-- A lexeme that is recognised is read as its word. -/
theorem of_recognise
    (unsigned : ∀ pos, signed? ⟨text ++ rest, pos, last⟩ = none)
    (found : recognise (text ++ rest) = .token kind text)
    (oneLine : Text.lineFeed ∉ text) :
    Yields last text [(kind, text)] rest := by
  refine of_next (fun pos => ?_) (kind_ne_endOfInput_of_recognise found) oneLine
  rw [next_eq, unsigned]
  simp only [found]
  simp [emit]

theorem lineFeed_not_mem
    {select : UInt8 → Bool}
    (stops : select Text.lineFeed = false)
    (selected : ∀ byte ∈ text, select byte = true) :
    Text.lineFeed ∉ text := by
  intro member
  rw [selected _ member] at stops
  cases stops

/-! ### Words and numbers -/

/-- A word is read before anything that does not go on with it. -/
theorem word
    {first : UInt8}
    {others : Text}
    (start : isWordStart first = true)
    (goesOn : others.all isWordByte = true)
    (delimits : Delimits rest) :
    Yields last (first :: others) [(wordKind (first :: others), first :: others)] rest := by
  have isWord : isWordByte first = true := by rw [isWordByte, start, Bool.true_or]
  have other : first ≠ 45 := by
    rintro rfl
    cases start
  exact of_recognise (signed?_of_head other _ · last) (recognise_word start goesOn delimits)
    (lineFeed_not_mem (by decide)
      (List.forall_mem_cons.mpr ⟨isWord, List.all_eq_true.mp goesOn⟩))

theorem name
    (named : isName text = true)
    (delimits : Delimits rest) :
    Yields last text [(.identifier, text)] rest := by
  cases text with
  | nil => cases named
  | cons first others =>
      simp only [isName, Bool.and_eq_true, decide_eq_true_eq] at named
      obtain ⟨⟨start, goesOn⟩, kind⟩ := named
      rw [← kind]
      exact word start goesOn delimits

theorem keyword
    (reserved : kind.category = .keyword)
    (delimits : Delimits rest) :
    Yields last kind.name [kind.word] rest := by
  cases kind with
  | letWord | fnWord | returnWord | ifWord | elseWord | trueWord | falseWord =>
      exact word rfl rfl delimits
  | _ => cases reserved

theorem number
    (value : Nat)
    (delimits : Delimits rest) :
    Yields last (Text.ofNat value) [(.integer, Text.ofNat value)] rest := by
  obtain ⟨first, others, equal, digit, other⟩ := Text.exists_ofNat_eq_cons value
  refine of_recognise (fun pos => ?_) ?_ ?_
  · rw [equal]
    exact signed?_of_head other _ pos last
  · exact recognise_number (Text.ofNat_ne_nil value) (fun _ => Text.isDigit_of_mem_ofNat)
      delimits.isDigit
  · exact lineFeed_not_mem (by decide) fun _ => Text.isDigit_of_mem_ofNat

/-- Where an operand must stand, a minus sign directly before a number belongs to it. -/
theorem negative
    (operand : last.expectsOperand = true)
    (value : Nat)
    (delimits : Delimits rest) :
    Yields last (45 :: Text.ofNat value) [(.integer, 45 :: Text.ofNat value)] rest := by
  have digits : ∀ byte ∈ Text.ofNat value, Text.isDigit byte = true :=
    fun _ => Text.isDigit_of_mem_ofNat
  have signed (pos : Position) : signed? ⟨45 :: Text.ofNat value ++ rest, pos, last⟩ =
      some (45 :: Text.ofNat value) := by
    obtain ⟨first, others, equal, digit, -⟩ := Text.exists_ofNat_eq_cons value
    have whole := takeWhile_append_of_delimits digits delimits.isDigit
    rw [equal] at whole ⊢
    simp only [signed?, List.cons_append] at whole ⊢
    simp [operand, digit, whole]
  refine of_next (fun pos => ?_) (by decide) ?_
  · rw [next_eq, signed]
    simp [emit]
  · rw [List.mem_cons, not_or]
    exact ⟨by decide, lineFeed_not_mem (by decide) digits⟩

theorem integer
    (operand : last.expectsOperand = true)
    (value : Int)
    (delimits : Delimits rest) :
    Yields last (Text.ofInt value) [(.integer, Text.ofInt value)] rest := by
  cases value with
  | ofNat value => exact number value delimits
  | negSucc value => exact negative operand (value + 1) delimits

/-! ### Symbols -/

/-- Brackets, commas and semicolons are read whatever follows. -/
theorem delimiter
    (isDelimiter : kind.category = .delimiter)
    (rest : Text) :
    Yields last kind.name [kind.word] rest := by
  cases kind with
  | semicolon | comma | leftParen | rightParen | leftBrace | rightBrace =>
      exact of_recognise (fun _ => rfl) rfl (by decide)
  | _ => cases isDelimiter

/-- An operator is read before a space. -/
theorem operator
    (isOperator : kind.category = .operator)
    (rest : Text) :
    Yields last kind.name [kind.word] (Text.space :: rest) := by
  cases kind with
  | assign | plus | star | slash | bang | less | greater | lessEqual | greaterEqual | equal
  | notEqual =>
      exact of_recognise (fun _ => rfl) rfl (by decide)
  | minus =>
      refine of_recognise (fun pos => ?_) rfl (by decide)
      cases last <;> rfl
  | _ => cases isOperator

/-- A minus sign that no digit follows is read on its own. -/
theorem minus (stops : ∀ byte ∈ rest.head?, Text.isDigit byte = false) :
    Yields last Kind.minus.name [Kind.minus.word] rest := by
  refine of_recognise (fun pos => ?_) rfl (by decide)
  have noDigit : rest.head?.any Text.isDigit = false := by
    cases rest with
    | nil => rfl
    | cons byte rest => exact stops byte rfl
  show (if (true && last.expectsOperand && rest.head?.any Text.isDigit) = true then _ else none) =
    none
  rw [noDigit, Bool.and_false]
  rfl

/-- An exclamation mark that no equals sign follows is read on its own. -/
theorem bang (stops : ∀ byte ∈ rest.head?, byte ≠ 61) :
    Yields last Kind.bang.name [Kind.bang.word] rest := by
  have other : Text.startsWith (33 :: rest) Kind.notEqual.name = false := by
    cases rest with
    | nil => rfl
    | cons byte rest =>
        show (true && ((61 == byte) && true)) = false
        rw [beq_eq_false_iff_ne.mpr (stops byte rfl).symm]
        rfl
  -- Only the unequal sign begins in the same way and is tried before it.
  have first : (symbols.find? fun kind => Text.startsWith (33 :: rest) kind.name) =
      bif Text.startsWith (33 :: rest) Kind.notEqual.name then some .notEqual else some .bang :=
    rfl
  rw [other, cond_false] at first
  have comment : Text.startsWith (33 :: rest) "//" = false := rfl
  have found : recognise (33 :: rest) = .token .bang Kind.bang.name := by
    rw [recognise, if_neg (by decide), comment, if_neg Bool.false_ne_true, first]
  exact of_recognise (fun _ => rfl) found (by decide)

end Yields
end Lexer

/-! ## Words that stand for a program -/

/-- The words as tokens at no place. -/
def Word.tokens (words : List Word) : List Token :=
  words.map fun word => ⟨word.1, word.2, .nowhere⟩

@[simp] theorem Word.tokens_nil : Word.tokens [] = [] := rfl

@[simp] theorem Word.tokens_cons (word : Word) (words : List Word) :
    Word.tokens (word :: words) = ⟨word.1, word.2, .nowhere⟩ :: Word.tokens words := rfl

@[simp] theorem Word.tokens_append (words words' : List Word) :
    Word.tokens (words ++ words') = Word.tokens words ++ Word.tokens words' :=
  List.map_append

/-- There are no lines at no place. -/
theorem Word.not_breaksLine (words : List Word) (kind : Kind) (lexeme : Text) :
    ¬Grammar.BreaksLine (Word.tokens words) ⟨kind, lexeme, .nowhere⟩ := by
  rintro ⟨last, ends, -, breaks⟩
  obtain ⟨word, -, rfl⟩ := List.mem_map.mp (List.mem_of_getLast? ends)
  exact absurd breaks (lt_irrefl _)

/-- Tokens on one line are alike to their words at no place. -/
theorem Token.alikeFrom_of_line
    {tokens : List Token}
    {line : Int}
    (oneLine : ∀ token ∈ tokens, token.pos.line = line)
    (opened : List Nat) :
    Token.AlikeFrom opened (Word.tokens (tokens.map Token.word)) tokens := by
  induction tokens generalizing opened with
  | nil => exact .nil
  | cons token tokens inductionHypothesis =>
      rw [List.forall_mem_cons] at oneLine
      refine .cons rfl rfl ?_ (inductionHypothesis oneLine.2 _)
      intro _ _ next heads next' heads'
      obtain ⟨word, -, rfl⟩ := List.mem_map.mp (List.mem_of_mem_head? heads)
      rw [oneLine.1, oneLine.2 next' (List.mem_of_mem_head? heads')]
      exact iff_of_false (lt_irrefl _) (lt_irrefl _)

/-- A text that is read as the words of a program gives this program. -/
theorem Program.ofText_of_yields
    {text : Text}
    {words : List Word}
    (yields : Lexer.Yields .endOfInput text words [])
    {program : Program}
    (derived : Grammar.Statements (Word.tokens words) program) :
    ∃ program', Program.ofText text = ⟨program', []⟩ ∧
      Block.bare program' = Block.bare program := by
  obtain ⟨tokens, pos, read, rfl, oneLine, -⟩ := yields .start
  have ended (last : Kind) : Lexer.body ⟨[], pos, last⟩ = [] := by
    rw [Lexer.body_eq, Lexer.next_eq]
    rfl
  rw [ended, List.append_nil, List.append_nil] at read
  obtain ⟨program', derived', same⟩ :=
    derived.transport (Token.alikeFrom_of_line oneLine [0])
  refine ⟨program', ?_, same⟩
  rw [← read] at derived'
  exact Parser.program_complete derived' rfl

end Siren
