import Siren.Console
import Siren.Proofs.IncompleteInput

/-!
# Continuation lines

The console asks for more lines exactly as long as they can make the chunk
valid.  A chunk of white space is handed back although it is not looked at, and
that is right too: either it holds no token, or its first one is illegal.
-/

namespace Siren

/-! ## White space -/

namespace Lexeme

/-- The bytes that tokens and comments may start with. -/
def isVisible (byte : UInt8) : Bool :=
  33 ≤ byte && byte ≤ 126

theorem isVisible_of_startsWith
    {spelling : Text}
    (visible : spelling.head?.any isVisible = true)
    {byte : UInt8}
    {rest : Text}
    (starts : Text.startsWith (byte :: rest) spelling = true) :
    isVisible byte = true := by
  cases spelling with
  | nil => cases visible
  | cons first spelling =>
      simp only [Text.startsWith, List.isPrefixOf, Bool.and_eq_true, beq_iff_eq] at starts
      rw [← starts.1]
      exact visible

theorem isVisible_of_isWordByte
    {byte : UInt8}
    (word : isWordByte byte = true) :
    isVisible byte = true := by
  simp only [isWordByte, isWordStart, Text.isDigit, isVisible, Bool.or_eq_true, Bool.and_eq_true,
    decide_eq_true_eq, UInt8.le_iff_toNat_le, ← UInt8.toNat_inj, UInt8.toNat_ofNat] at word ⊢
  omega

/-- A byte that is neither blank nor visible starts no lexeme. -/
theorem recognise_of_not_isVisible
    {byte : UInt8}
    (nonblank : isBlank byte = false)
    (invisible : isVisible byte = false)
    (rest : Text) :
    recognise (byte :: rest) = .illegal byte := by
  have spelled (spelling : Text) (visible : spelling.head?.any isVisible = true) :
      ¬Text.startsWith (byte :: rest) spelling = true := by
    intro starts
    rw [isVisible_of_startsWith visible starts] at invisible
    cases invisible
  have symbol : (symbols.find? fun kind => Text.startsWith (byte :: rest) kind.name) = none := by
    rw [List.find?_eq_none]
    intro kind member
    refine spelled kind.name ?_
    revert kind
    decide
  have word : ¬isWordByte byte = true := by
    intro word
    rw [isVisible_of_isWordByte word] at invisible
    cases invisible
  simp only [isWordByte, Bool.or_eq_true, not_or] at word
  simp only [recognise, symbol, if_neg (spelled "//" (by decide)), nonblank, if_neg word.1,
    if_neg word.2, Bool.false_eq_true, if_false]

end Lexeme

namespace Rune

theorem head_of_lt
    {byte : UInt8}
    (single : byte < 128)
    (rest : Text) :
    head byte rest = ⟨byte.toNat, [byte]⟩ := by
  simp only [head, if_pos single]

/-- The first byte of white space is blank or starts no lexeme. -/
theorem isVisible_of_isBlank_head
    {byte : UInt8}
    {rest : Text}
    (blank : (head byte rest).isBlank = true) :
    Lexeme.isVisible byte = false := by
  by_cases single : byte < 128
  · rw [head_of_lt single] at blank
    simp only [isBlank, Bool.or_eq_true, Bool.and_eq_true, decide_eq_true_eq] at blank
    rw [UInt8.lt_iff_toNat_lt, UInt8.toNat_ofNat] at single
    rw [Bool.eq_false_iff]
    simp only [Lexeme.isVisible, ne_eq, Bool.and_eq_true, decide_eq_true_eq,
      UInt8.le_iff_toNat_le, UInt8.toNat_ofNat]
    omega
  · have high := UInt8.not_lt.mp single
    rw [Bool.eq_false_iff]
    simp only [Lexeme.isVisible, ne_eq, Bool.and_eq_true, decide_eq_true_eq,
      UInt8.le_iff_toNat_le, UInt8.toNat_ofNat] at high ⊢
    omega

end Rune

namespace Text

theorem isBlank_cons (byte : UInt8) (rest : Text) :
    isBlank (byte :: rest) =
      ((Rune.head byte rest).isBlank &&
        isBlank ((byte :: rest).drop (Rune.head byte rest).bytes.length)) := by
  rw [isBlank, runes, List.all_cons]
  rfl

theorem isVisible_of_isBlank_cons
    {byte : UInt8}
    {rest : Text}
    (blank : isBlank (byte :: rest) = true) :
    Lexeme.isVisible byte = false := by
  rw [isBlank_cons, Bool.and_eq_true] at blank
  exact Rune.isVisible_of_isBlank_head blank.1

/-- What follows blanks in white space is white space. -/
theorem isBlank_dropWhile
    {text : Text}
    (blank : isBlank text = true) :
    isBlank (text.dropWhile Lexeme.isBlank) = true := by
  induction text with
  | nil => exact blank
  | cons byte rest inductionHypothesis =>
      rw [List.dropWhile_cons]
      split
      · rename_i single
        have single : byte < 128 := by
          simp only [Lexeme.isBlank, Bool.or_eq_true, decide_eq_true_eq] at single
          rcases single with (((rfl | rfl) | rfl) | rfl) | rfl <;> decide
        rw [isBlank_cons, Rune.head_of_lt single, Bool.and_eq_true] at blank
        exact inductionHypothesis blank.2
      · exact blank

end Text

/-- White space holds gaps and bytes that start no lexeme. -/
theorem Lexeme.recognise_of_isBlank
    {text : Text}
    (blank : text.isBlank = true) :
    recognise text = .nothing ∨ recognise text = .gap (text.takeWhile isBlank) ∨
      ∃ byte, recognise text = .illegal byte := by
  cases text with
  | nil => exact .inl rfl
  | cons byte rest =>
      by_cases gap : isBlank byte = true
      · exact .inr (.inl (by rw [recognise, if_pos gap]))
      · have invisible := Text.isVisible_of_isBlank_cons blank
        exact .inr (.inr ⟨byte,
          recognise_of_not_isVisible (Bool.eq_false_iff.mpr gap) invisible rest⟩)

theorem Lexer.signed?_of_isBlank
    {lexer : Lexer}
    (blank : lexer.rest.isBlank = true) :
    lexer.signed? = none := by
  obtain ⟨rest, pos, last⟩ := lexer
  cases rest with
  | nil => rfl
  | cons byte rest =>
      have other : byte ≠ 45 := by
        rintro rfl
        exact absurd (Text.isVisible_of_isBlank_cons blank) (by decide)
      simp [signed?, other]

/-- The first token of white space, if any, is illegal. -/
theorem Lexer.kind_next_of_isBlank
    (lexer : Lexer)
    (blank : lexer.rest.isBlank = true) :
    lexer.next.1.kind = .endOfInput ∨ lexer.next.1.kind = .illegal := by
  fun_induction next lexer with
  | case1 lexer lexeme signed =>
      rw [signed?_of_isBlank blank] at signed
      cases signed
  | case2 lexer signed found => exact .inl rfl
  | case3 lexer signed lexeme found length inductionHypothesis =>
      apply inductionHypothesis
      rcases Lexeme.recognise_of_isBlank blank with nothing | gap | ⟨byte, illegal⟩
      · cases found.symm.trans nothing
      · obtain rfl := Lexeme.Found.gap.inj (found.symm.trans gap)
        have dropped : lexer.rest.drop (lexer.rest.takeWhile Lexeme.isBlank).length =
            lexer.rest.dropWhile Lexeme.isBlank :=
          List.append_cancel_left ((List.prefix_iff_eq_append.mp
            (List.takeWhile_prefix _)).trans List.takeWhile_append_dropWhile.symm)
        rw [Lexer.skip, dropped]
        exact Text.isBlank_dropWhile blank
      · cases found.symm.trans illegal
  | case4 lexer signed kind lexeme found =>
      rcases Lexeme.recognise_of_isBlank blank with nothing | gap | ⟨byte, illegal⟩
      · cases found.symm.trans nothing
      · cases found.symm.trans gap
      · cases found.symm.trans illegal
  | case5 lexer signed byte found => exact .inr rfl

/-- A program that starts with an illegal token is not just incomplete. -/
theorem Parser.isIncomplete_of_illegal
    {prev : Option Token}
    {token : Token}
    {rest : List Token}
    {stop : Position}
    {parens : Nat}
    (illegal : token.kind = .illegal) :
    SyntaxError.isIncomplete (program ⟨prev, token :: rest, stop, parens⟩).errors = false := by
  have start : Cursor.skipSemicolons ⟨prev, token :: rest, stop, parens⟩ =
      ⟨prev, token :: rest, stop, parens⟩ := by
    simp [Cursor.skipSemicolons, Cursor.drop, illegal]
  rw [program_eq, start, if_neg (List.cons_ne_nil _ _), run_closedStatement, run_statement_cons]
  simp only [illegal, run_expr, run_operand_cons, Run.complain, Run.andThen_error, Run.map_error]
  simp [SyntaxError.isIncomplete, SyntaxError.about, Cursor.current, illegal]

/-- White space is never incomplete. -/
theorem Program.isIncomplete_of_isBlank
    {source : Text}
    (blank : source.isBlank = true) :
    SyntaxError.isIncomplete (Program.ofText source).errors = false := by
  have first := (Lexer.ofText source).kind_next_of_isBlank blank
  have tokens := (Lexer.ofText source).body_eq
  rw [← Cursor.rest_ofText] at tokens
  rw [Program.ofText, Program.ofTokens]
  rcases first with ended | illegal
  · rw [if_pos ended] at tokens
    rw [Parser.program_eq_nil tokens]
    rfl
  · rw [if_neg (by simp [illegal])] at tokens
    generalize Cursor.ofTokens (Token.ofText source) = cursor at tokens
    obtain ⟨prev, rest, stop, parens⟩ := cursor
    obtain rfl := tokens
    exact Parser.isIncomplete_of_illegal illegal

/-! ## Reading chunks -/

namespace Console

variable {prompts : Prompts} {ending : Ending} {strict : Bool}

/-- Chunks of white space need not be looked at. -/
theorem isFinished_iff (text : Text) :
    isFinished text = true ↔ SyntaxError.isIncomplete (Program.ofText text).errors = false := by
  unfold isFinished
  cases blank : text.isBlank with
  | false => simp
  | true => simp [Program.isIncomplete_of_isBlank blank]

/-- A chunk is handed back when no more lines are needed. -/
theorem isFinished_of_readFrom
    {pending text : Text}
    {lines : List Text}
    (complete : (readFrom prompts ending strict pending lines).chunk = .read text) :
    isFinished text = true := by
  induction lines generalizing pending with
  | nil =>
      unfold readFrom at complete
      split at complete <;> cases complete
  | cons line lines inductionHypothesis =>
      unfold readFrom at complete
      split at complete
      · cases complete
      · split at complete
        · rename_i finished
          cases complete
          exact finished
        · exact inductionHypothesis complete

/-- Whether all of the lines are read and one more is asked for. -/
def AsksOn (prompts : Prompts) (ending : Ending) (strict : Bool) (pending : Text)
    (lines : List Text) : Prop :=
  (readFrom prompts ending strict pending lines).shown.length = lines.length + 1

theorem asksOn_nil_iff (pending : Text) :
    AsksOn prompts ending strict pending [] ↔ (promptFor prompts strict pending).isSome := by
  unfold AsksOn readFrom
  cases promptFor prompts strict pending <;> simp [refused]

theorem asksOn_cons_iff (pending line : Text) (lines : List Text) :
    AsksOn prompts ending strict pending (line :: lines) ↔
      (promptFor prompts strict pending).isSome ∧ isFinished (extend pending line) = false ∧
        AsksOn prompts ending strict (extend pending line) lines := by
  unfold AsksOn
  rw [readFrom]
  cases promptFor prompts strict pending with
  | none => simp [refused]
  | some prompt =>
      cases finished : isFinished (extend pending line) with
      | false => simp
      | true => simp

/-- A line that finishes the chunk is the last one of it. -/
theorem chunk_readFrom_append
    {pending line : Text}
    {lines : List Text}
    (asks : AsksOn prompts ending strict pending lines)
    (finished : isFinished (extend (lines.foldl extend pending) line) = true) :
    (readFrom prompts ending strict pending (lines ++ [line])).chunk =
      .read (extend (lines.foldl extend pending) line) := by
  induction lines generalizing pending with
  | nil =>
      rw [asksOn_nil_iff, Option.isSome_iff_exists] at asks
      obtain ⟨prompt, prompted⟩ := asks
      rw [List.nil_append, readFrom, prompted]
      simp only [List.foldl_nil] at finished ⊢
      rw [if_pos finished]
  | cons first lines inductionHypothesis =>
      rw [asksOn_cons_iff, Option.isSome_iff_exists] at asks
      obtain ⟨⟨prompt, prompted⟩, unfinished, asks⟩ := asks
      rw [List.cons_append, readFrom, prompted]
      simp only [unfinished, Bool.false_eq_true, if_false]
      exact inductionHypothesis asks finished

/-- Lines are asked for as long as the chunk is unfinished. -/
theorem isFinished_foldl_extend
    {pending line : Text}
    {lines : List Text}
    (asks : AsksOn prompts ending strict pending (line :: lines)) :
    isFinished (lines.foldl extend (extend pending line)) = false := by
  induction lines generalizing pending line with
  | nil =>
      rw [asksOn_cons_iff] at asks
      exact asks.2.1
  | cons next lines inductionHypothesis =>
      rw [asksOn_cons_iff] at asks
      exact inductionHypothesis asks.2.2

theorem ne_nil_of_isFinished
    {text : Text}
    (unfinished : isFinished text = false) :
    text ≠ [] := by
  rintro rfl
  have blank : Text.isBlank [] = true := by
    rw [Text.isBlank, Text.runes]
    rfl
  rw [isFinished, blank] at unfinished
  cases unfinished

/-- The lines of a chunk are joined by line feeds. -/
theorem foldl_extend_eq_join
    {pending : Text}
    (nonempty : pending ≠ [])
    (lines : List Text) :
    lines.foldl extend pending = Text.join [Text.lineFeed] (pending :: lines) := by
  induction lines generalizing pending with
  | nil => rfl
  | cons line lines inductionHypothesis =>
      have longer : extend pending line = pending ++ [Text.lineFeed] ++ line := if_neg nonempty
      rw [List.foldl_cons, longer, inductionHypothesis (by simp)]
      cases lines with
      | nil => rfl
      | cons next lines => simp [Text.join]

/-- A chunk for which more lines are asked for is completed by one more line. -/
theorem exists_line_of_asksOn
    {lines : List Text}
    (asks : AsksOn prompts ending strict [] lines) :
    ∃ line, Text.lineFeed ∉ line ∧
      (readFrom prompts ending strict [] (lines ++ [line])).chunk =
        .read (Text.join [Text.lineFeed] (lines ++ [line])) ∧
      (Program.ofText (Text.join [Text.lineFeed] (lines ++ [line]))).errors = [] := by
  suffices completed : ∃ line, Text.lineFeed ∉ line ∧
      extend (lines.foldl extend []) line = Text.join [Text.lineFeed] (lines ++ [line]) ∧
      (Program.ofText (Text.join [Text.lineFeed] (lines ++ [line]))).errors = [] by
    obtain ⟨line, single, joined, valid⟩ := completed
    refine ⟨line, single, ?_, valid⟩
    rw [← joined] at valid ⊢
    apply chunk_readFrom_append asks
    rw [isFinished_iff, valid]
    rfl
  cases lines with
  | nil =>
      have blank : (Program.ofText []).errors = [] := by
        have none : (Cursor.ofTokens (Token.ofText [])).rest = [] := by
          rw [Cursor.rest_ofText, Lexer.body_eq, Lexer.next_eq]
          rfl
        rw [Program.ofText, Program.ofTokens, Parser.program_eq_nil none]
      exact ⟨[], by simp, rfl, blank⟩
  | cons first lines =>
      have unfinished : isFinished (lines.foldl extend first) = false :=
        isFinished_foldl_extend asks
      have start : first ≠ [] := by
        rw [asksOn_cons_iff] at asks
        exact ne_nil_of_isFinished asks.2.1
      have incomplete : SyntaxError.isIncomplete
          (Program.ofText (lines.foldl extend first)).errors = true := by
        rwa [← Bool.not_eq_true, isFinished_iff, Bool.not_eq_false] at unfinished
      obtain ⟨line, single, valid⟩ := Program.exists_line_completing incomplete
      have joined : extend (lines.foldl extend first) line =
          Text.join [Text.lineFeed] (first :: (lines ++ [line])) := by
        rw [← foldl_extend_eq_join start, List.foldl_append, List.foldl_cons, List.foldl_nil]
      have longer : extend (lines.foldl extend first) line =
          lines.foldl extend first ++ [Text.lineFeed] ++ line :=
        if_neg (ne_nil_of_isFinished unfinished)
      refine ⟨line, single, joined, ?_⟩
      rw [List.cons_append, ← joined, longer]
      exact valid

end Console

/-- A source with syntax errors is incomplete exactly when more text on further
lines makes it valid.  So a chunk that the console hands back with a syntax
error has errors whatever lines follow, and a chunk for which it shows one more
prompt than there are lines is completed by one more line. -/
theorem incomplete_iff_completable :
    (∀ source : Text, (Program.ofText source).errors ≠ [] →
      (SyntaxError.isIncomplete (Program.ofText source).errors = true ↔
        ∃ more, (Program.ofText (source ++ [Text.lineFeed] ++ more)).errors = [])) ∧
    (∀ (prompts : Console.Prompts) (input : Console.Source) (chunk : Text),
      (Console.read prompts input).chunk = .read chunk →
      (Program.ofText chunk).errors ≠ [] →
      ∀ more, (Program.ofText (chunk ++ [Text.lineFeed] ++ more)).errors ≠ []) ∧
    (∀ (prompts : Console.Prompts) (input : Console.Source),
      (Console.read prompts input).shown.length = input.lines.length + 1 →
      ∃ line, Text.lineFeed ∉ line ∧
        (Console.read prompts { input with lines := input.lines ++ [line] }).chunk =
          .read (Text.join [Text.lineFeed] (input.lines ++ [line])) ∧
        (Program.ofText (Text.join [Text.lineFeed] (input.lines ++ [line]))).errors = []) := by
  refine ⟨?_, ?_, ?_⟩
  · intro source failed
    constructor
    · intro incomplete
      obtain ⟨line, _, valid⟩ := Program.exists_line_completing incomplete
      exact ⟨line, valid⟩
    · rintro ⟨more, valid⟩
      by_contra finished
      rw [Bool.not_eq_true] at finished
      exact Program.errors_ne_nil_of_lines failed finished more valid
  · intro prompts input chunk complete failed more
    have finished := (Console.isFinished_iff chunk).mp (Console.isFinished_of_readFrom complete)
    exact Program.errors_ne_nil_of_lines failed finished more
  · intro prompts input asks
    exact Console.exists_line_of_asksOn asks

/-- A text that is one lexeme is one token. -/
theorem Token.ofText_of_recognise
    {source : Text}
    (kind : Kind)
    (signed : (Lexer.ofText source).signed? = none)
    (found : Lexeme.recognise (Lexer.ofText source).rest = .token kind source) :
    Token.ofText source = [⟨kind, source, .start⟩, .endAt (Position.start.advance source)] := by
  have first : (Lexer.ofText source).next =
      (⟨kind, source, .start⟩, ⟨[], Position.start.advance source, kind⟩) := by
    rw [Lexer.next_eq, signed]
    simp only [found]
    simp [Lexer.emit, Lexer.ofText]
  have last (pos : Position) :
      Lexer.next ⟨[], pos, kind⟩ = (.endAt pos, ⟨[], pos, .endOfInput⟩) := by
    rw [Lexer.next_eq]
    rfl
  rw [Token.ofText, Lexer.tokenize, first,
    if_neg (by exact Lexer.kind_ne_endOfInput_of_recognise found), Lexer.tokenize, last]
  rfl

/-- After an opening parenthesis the console asks on, and a line completes it; a
closing one is handed back, and nothing does. -/
theorem incomplete_iff_completable_parentheses :
    (∃ more, (Program.ofText ("(" ++ [Text.lineFeed] ++ more)).errors = []) ∧
    (∀ more, (Program.ofText (")" ++ [Text.lineFeed] ++ more)).errors ≠ []) ∧
    ∃ line, (Console.read ⟨"> ", ". "⟩ ⟨["(", line], .closed, false⟩).chunk =
        .read ("(" ++ Text.lineFeed :: line) ∧
      (Program.ofText ("(" ++ Text.lineFeed :: line)).errors = [] := by
  have opening : (Program.ofText "(").errors =
      [.about (.endAt ⟨1, 2, 1⟩) .missingExpression] := by
    rw [Program.ofText, Token.ofText_of_recognise .leftParen rfl rfl]
    cbv
  have closing : (Program.ofText ")").errors =
      [.about ⟨.rightParen, ")", .start⟩ (.unexpected ⟨.rightParen, ")", .start⟩)] := by
    rw [Program.ofText, Token.ofText_of_recognise .rightParen rfl rfl]
    cbv
  have unfinished : Console.isFinished "(" = false := by
    rw [← Bool.not_eq_true, Console.isFinished_iff, opening]
    decide
  have finished : Console.isFinished ")" = true := by
    rw [Console.isFinished_iff, closing]
    decide
  have asks : Console.AsksOn ⟨"> ", ". "⟩ .closed false [] ["("] :=
    (Console.asksOn_cons_iff ..).mpr ⟨rfl, unfinished, (Console.asksOn_nil_iff _).mpr rfl⟩
  have reads : (Console.read ⟨"> ", ". "⟩ ⟨[")"], .closed, false⟩).chunk = .read ")" :=
    Console.chunk_readFrom_append ((Console.asksOn_nil_iff []).mpr rfl) finished
  obtain ⟨completable, fails, asksOn⟩ := incomplete_iff_completable
  refine ⟨(completable "(" (by simp [opening])).mp (by rw [opening]; decide),
    fails ⟨"> ", ". "⟩ ⟨[")"], .closed, false⟩ ")" reads (by simp [closing]), ?_⟩
  obtain ⟨line, _, read, valid⟩ := asksOn ⟨"> ", ". "⟩ ⟨["("], .closed, false⟩ asks
  exact ⟨line, by simpa [Text.join] using read, by simpa [Text.join] using valid⟩

end Siren
