import Siren.Proofs.WordByWord

/-!
# Longest match

A lexeme has one of a few shapes: blanks, a comment, an operator or delimiter, a number
or a word.  At the start of a text the shapes are tried in a fixed order, and the first one
that fits is taken.  Symbols that start with the same byte are the only ones that fit in
the same place, together with a comment and the slash, and of these a longer one comes
first.  So the lexeme that is found is the longest one of any shape.
-/

namespace Siren
namespace Lexeme

/-! ## Shapes -/

/-- The shapes of lexemes. -/
inductive Shape where
  | blanks
  | comment
  | symbol (kind : Kind)
  | number
  | word
  deriving DecidableEq, Repr

namespace Shape

/-- The texts of a shape. -/
inductive Has : Shape → Text → Prop where
  | blanks {text : Text}
      (nonempty : text ≠ [])
      (blank : ∀ byte ∈ text, isBlank byte = true) :
      Has .blanks text
  | comment {line : Text}
      (single : Text.lineFeed ∉ line) :
      Has .comment (Text.ofString "//" ++ line)
  | symbol {kind : Kind}
      (category : kind.category = .operator ∨ kind.category = .delimiter) :
      Has (.symbol kind) kind.name
  | number {text : Text}
      (nonempty : text ≠ [])
      (digits : ∀ byte ∈ text, Text.isDigit byte = true) :
      Has .number text
  | word {first : UInt8} {others : Text}
      (start : isWordStart first = true)
      (goesOn : ∀ byte ∈ others, isWordByte byte = true) :
      Has .word (first :: others)

/-- The kind of a lexeme of a shape; what separates tokens has the kind of the end of
the input. -/
def kind : Shape → Text → Kind
  | .blanks, _ | .comment, _ => .endOfInput
  | .symbol kind, _ => kind
  | .number, _ => .integer
  | .word, text => wordKind text

end Shape

/-- What is reported of the start of a text. -/
structure Report where
  kind : Kind
  lexeme : Text
  matched : Bool
  deriving DecidableEq, Repr

/-- The report of what was found. -/
def Found.report : Found → Report
  | .nothing => ⟨.endOfInput, [], false⟩
  | .gap lexeme => ⟨.endOfInput, lexeme, true⟩
  | .token kind lexeme => ⟨kind, lexeme, true⟩
  | .illegal byte => ⟨.illegal, Lexer.codePoint byte, false⟩

/-! ## The order of the symbols -/

/-- The symbols are the operators and delimiters. -/
theorem mem_symbols_iff (kind : Kind) :
    kind ∈ symbols ↔ kind.category = .operator ∨ kind.category = .delimiter := by
  cases kind <;> decide

/-- No symbol is the first part of one that comes after it. -/
theorem symbols_pairwise :
    symbols.Pairwise fun earlier later => ¬earlier.name <+: later.name := by
  decide

theorem length_name_le_two : ∀ kind ∈ symbols, kind.name.length ≤ 2 := by
  decide

theorem isBlank_head_name :
    ∀ kind ∈ symbols, kind.name.head?.any (!isBlank ·) = true := by
  decide

/-- Of the symbols that start a text the first one is the longest. -/
theorem exists_find?_symbols
    {text : Text}
    {kind : Kind}
    (member : kind ∈ symbols)
    (starts : kind.name <+: text) :
    ∃ found, (symbols.find? fun kind => text.startsWith kind.name) = some found ∧
      kind.name.length ≤ found.name.length := by
  obtain ⟨found, equal⟩ : ∃ found, (symbols.find? fun kind => text.startsWith kind.name) =
      some found :=
    Option.isSome_iff_exists.mp
      (List.find?_isSome.mpr ⟨kind, member, List.isPrefixOf_iff_prefix.mpr starts⟩)
  refine ⟨found, equal, ?_⟩
  obtain ⟨fits, before, after, split, unfit⟩ := List.find?_eq_some_iff_append.mp equal
  have starts' : found.name <+: text := List.isPrefixOf_iff_prefix.mp fits
  by_contra longer
  -- Then the symbol found is the first part of the other one, which comes after it.
  have part : found.name <+: kind.name :=
    List.prefix_of_prefix_length_le starts' starts (by omega)
  have order := symbols_pairwise
  rw [split] at member order
  rcases List.mem_append.mp member with earlier | later
  · have misfit := unfit kind earlier
    rw [Text.startsWith, List.isPrefixOf_iff_prefix.mpr starts] at misfit
    cases misfit
  · rcases List.mem_cons.mp later with rfl | later
    · exact longer (Nat.le_refl _)
    · exact List.rel_of_pairwise_cons (List.pairwise_append.mp order).2.1 later part

/-- What starts with a symbol starts with no blank. -/
theorem isBlank_of_starts
    {byte : UInt8}
    {rest : Text}
    {kind : Kind}
    (member : kind ∈ symbols)
    (starts : kind.name <+: byte :: rest) :
    isBlank byte = false := by
  have visible := isBlank_head_name kind member
  cases equal : kind.name with
  | nil => exact absurd equal (name_ne_nil_of_mem_symbols member)
  | cons first others =>
      rw [equal] at starts visible
      rw [← (List.cons_prefix_cons.mp starts).1]
      simpa using visible

/-! ## Texts of one shape -/

/-- A text that starts with two slashes starts with a comment. -/
theorem recognise_slashes (line : Text) :
    recognise (Text.ofString "//" ++ line) =
      .gap ((Text.ofString "//" ++ line).takeWhile (· ≠ Text.lineFeed)) := rfl

theorem ne_lineFeed_of_mem_comment
    {line : Text}
    (single : Text.lineFeed ∉ line) :
    ∀ byte ∈ Text.ofString "//" ++ line, decide (byte ≠ Text.lineFeed) = true := by
  intro byte member
  rw [decide_eq_true_eq]
  rintro rfl
  rcases List.mem_append.mp member with slash | inside
  · exact absurd slash (by decide)
  · exact single inside

namespace Shape

/-- A text that has a shape is a lexeme of this shape. -/
theorem Has.report_eq
    {shape : Shape}
    {text : Text}
    (has : shape.Has text) :
    (recognise text).report = ⟨shape.kind text, text, true⟩ := by
  cases has with
  | blanks nonempty blank =>
      rw [recognise_blanks nonempty (List.all_eq_true.mpr blank)]
      rfl
  | comment single =>
      rw [recognise_slashes, List.takeWhile_eq_self_iff.mpr (ne_lineFeed_of_mem_comment single)]
      rfl
  | @symbol kind category =>
      cases kind with
      | assign | plus | minus | star | slash | bang | less | greater | lessEqual | greaterEqual
      | equal | notEqual | semicolon | comma | leftParen | rightParen | leftBrace | rightBrace =>
          rfl
      | _ => exact absurd category (by decide)
  | number nonempty digits =>
      have found : recognise (text ++ []) = .token .integer text :=
        recognise_number nonempty digits nofun
      rw [List.append_nil] at found
      rw [found]
      rfl
  | word start goesOn =>
      have found := recognise_word start (List.all_eq_true.mpr goesOn) .nil
      rw [List.append_nil] at found
      rw [found]
      rfl

theorem Has.ne_nil
    {shape : Shape}
    {text : Text}
    (has : shape.Has text) :
    text ≠ [] := by
  rintro rfl
  have report := has.report_eq
  cases congrArg Report.matched report

end Shape

/-! ## What is found -/

/-- A run of bytes is at least as long as any that starts in the same place. -/
theorem length_le_takeWhile
    {select : UInt8 → Bool}
    {start : Text}
    (selected : ∀ byte ∈ start, select byte = true)
    (more : Text) :
    start.length ≤ ((start ++ more).takeWhile select).length := by
  rw [List.takeWhile_append_of_pos selected, List.length_append]
  exact Nat.le_add_right _ _

/-- A text goes on with a run of bytes up to one that is not selected. -/
theorem exists_run
    (select : UInt8 → Bool)
    (text : Text) :
    ∃ run rest, text = run ++ rest ∧ (∀ byte ∈ run, select byte = true) ∧
      ∀ byte ∈ rest.head?, select byte = false := by
  refine ⟨text.takeWhile select, text.dropWhile select, List.takeWhile_append_dropWhile.symm,
    fun byte member => List.mem_takeWhile_imp member, fun byte heads => ?_⟩
  have stops := List.head?_dropWhile_not select text
  rw [heads] at stops
  simpa using stops

/-- What starts with a symbol starts with a comment or with the longest such symbol. -/
theorem recognise_of_symbol
    {text : Text}
    {kind : Kind}
    (member : kind ∈ symbols)
    (starts : kind.name <+: text) :
    recognise text = .gap (text.takeWhile (· ≠ Text.lineFeed)) ∧ Text.ofString "//" <+: text ∨
      ∃ found, recognise text = .token found found.name ∧
        kind.name.length ≤ found.name.length := by
  obtain ⟨found, first, longer⟩ := exists_find?_symbols member starts
  cases text with
  | nil => exact absurd (List.prefix_nil.mp starts) (name_ne_nil_of_mem_symbols member)
  | cons byte rest =>
      rw [recognise, if_neg (by simp [isBlank_of_starts member starts])]
      split
      · rename_i slashes
        exact .inl ⟨rfl, List.isPrefixOf_iff_prefix.mp slashes⟩
      · simp only [first]
        exact .inr ⟨found, rfl, longer⟩

/-- What starts with a text of any shape starts with a lexeme that is at least as long. -/
theorem Shape.Has.longest
    {shape : Shape}
    {start : Text}
    (has : shape.Has start)
    (more : Text) :
    (recognise (start ++ more)).report.matched = true ∧
      start.length ≤ (recognise (start ++ more)).report.lexeme.length := by
  cases has with
  | blanks nonempty blank =>
      obtain ⟨byte, rest, rfl⟩ := List.exists_cons_of_ne_nil nonempty
      rw [List.cons_append, recognise, if_pos (blank byte List.mem_cons_self)]
      exact ⟨rfl, length_le_takeWhile blank more⟩
  | comment single =>
      rw [List.append_assoc, recognise_slashes, ← List.append_assoc]
      exact ⟨rfl, length_le_takeWhile (ne_lineFeed_of_mem_comment single) more⟩
  | @symbol kind category =>
      have member := (mem_symbols_iff kind).mpr category
      rcases recognise_of_symbol member (List.prefix_append kind.name more) with
        ⟨comment, slashes⟩ | ⟨found, token, longer⟩
      · -- A comment has two slashes, and no symbol is longer.
        obtain ⟨line, whole⟩ := slashes
        rw [comment, ← whole]
        have two := length_le_takeWhile (ne_lineFeed_of_mem_comment List.not_mem_nil) line
        exact ⟨rfl, (length_name_le_two kind member).trans two⟩
      · rw [token]
        exact ⟨rfl, longer⟩
  | number nonempty digits =>
      obtain ⟨run, rest, rfl, selected, stops⟩ := exists_run Text.isDigit more
      rw [← List.append_assoc, recognise_number (by simp [nonempty])
        (List.forall_mem_append.mpr ⟨digits, selected⟩) stops]
      exact ⟨rfl, by simp [Found.report]⟩
  | @word first others start goesOn =>
      obtain ⟨run, rest, rfl, selected, stops⟩ := exists_run isWordByte more
      rw [← List.append_assoc, List.cons_append, recognise_word start
        (List.all_eq_true.mpr (List.forall_mem_append.mpr ⟨goesOn, selected⟩)) stops]
      exact ⟨rfl, by simp [Found.report]⟩

/-- What is found at the start of a text: a lexeme of some shape that stands there, or the
first byte. -/
inductive Finds (text : Text) : Report → Prop where
  | lexeme {shape : Shape} {lexeme : Text}
      (has : shape.Has lexeme)
      (starts : lexeme <+: text) :
      Finds text ⟨shape.kind lexeme, lexeme, true⟩
  | illegal {byte : UInt8} {rest : Text}
      (first : text = byte :: rest) :
      Finds text ⟨.illegal, Lexer.codePoint byte, false⟩

theorem finds_recognise
    {text : Text}
    (nonempty : text ≠ []) :
    Finds text (recognise text).report := by
  obtain ⟨byte, rest, rfl⟩ := List.exists_cons_of_ne_nil nonempty
  simp only [recognise]
  split
  · rename_i blank
    exact .lexeme (.blanks (by simp [blank]) fun _ member => List.mem_takeWhile_imp member)
      (List.takeWhile_prefix _)
  · split
    · rename_i slashes
      obtain ⟨line, whole⟩ := List.isPrefixOf_iff_prefix.mp slashes
      have comment : (byte :: rest).takeWhile (· ≠ Text.lineFeed) =
          Text.ofString "//" ++ line.takeWhile (· ≠ Text.lineFeed) := by
        rw [← whole]
        exact List.takeWhile_append_of_pos (ne_lineFeed_of_mem_comment List.not_mem_nil)
      have single : Text.lineFeed ∉ line.takeWhile (· ≠ Text.lineFeed) := fun member => by
        simpa using List.mem_takeWhile_imp member
      have starts := List.takeWhile_prefix (l := byte :: rest) (· ≠ Text.lineFeed)
      rw [comment] at starts ⊢
      exact .lexeme (.comment single) starts
    · split
      · rename_i kind found
        have starts := List.find?_some found
        exact .lexeme (.symbol ((mem_symbols_iff kind).mp (List.mem_of_find?_eq_some found)))
          (List.isPrefixOf_iff_prefix.mp starts)
      · split
        · rename_i digit
          exact .lexeme (.number (by simp [digit]) fun _ member => List.mem_takeWhile_imp member)
            (List.takeWhile_prefix _)
        · split
          · rename_i start
            have word : isWordByte byte = true := by rw [isWordByte, start, Bool.true_or]
            have starts := List.takeWhile_prefix (l := byte :: rest) isWordByte
            rw [List.takeWhile_cons_of_pos word] at starts ⊢
            exact .lexeme (.word start fun _ member => List.mem_takeWhile_imp member) starts
          · exact .illegal rfl

/-- A lexeme of some shape is a reserved word if and only if it is spelled as one. -/
theorem Shape.Has.kind_eq_iff
    {shape : Shape}
    {text : Text}
    (has : shape.Has text)
    {reserved : Kind}
    (keyword : reserved.category = .keyword) :
    shape.kind text = reserved ↔ text = reserved.name := by
  constructor
  · intro equal
    cases has with
    | blanks _ _ | comment _ | number _ _ =>
        rw [← equal] at keyword
        cases keyword
    | symbol category =>
        rw [← equal] at keyword
        rcases category with operator | delimiter
        · cases keyword.symm.trans operator
        · cases keyword.symm.trans delimiter
    | word _ _ =>
        rw [kind, wordKind] at equal
        cases found : Kind.ofWord? _ with
        | none =>
            rw [found] at equal
            rw [← equal] at keyword
            cases keyword
        | some word =>
            rw [found] at equal
            obtain rfl : word = reserved := equal
            have spelled := List.find?_some found
            exact (of_decide_eq_true spelled).symm
  · intro spelled
    have report := has.report_eq
    rw [spelled] at report ⊢
    have found : (recognise reserved.name).report.kind = reserved := by
      cases reserved with
      | letWord | fnWord | returnWord | ifWord | elseWord | trueWord | falseWord => rfl
      | _ => cases keyword
    rw [report] at found
    exact found

/-- At the start of a text that is not empty the longest lexeme of any shape is found.
There is a match if and only if some first part of the text has a shape; the lexeme is then
such a part, no other one is longer, and its kind is that of its shape, which is a reserved
word if and only if the whole lexeme is spelled as one.  Without a match the first byte is
reported as illegal. -/
theorem recognise_is_longest_match
    {text : Text}
    (nonempty : text ≠ []) :
    let report := (recognise text).report
    (report.matched = true ↔
      ∃ (shape : Shape) (start : Text), start ≠ [] ∧ start <+: text ∧ shape.Has start) ∧
    (report.matched = true →
      report.lexeme ≠ [] ∧ report.lexeme <+: text ∧
      (∃ shape : Shape, shape.Has report.lexeme ∧ report.kind = shape.kind report.lexeme) ∧
      (∀ shape : Shape, shape.Has report.lexeme → report.kind = shape.kind report.lexeme) ∧
      (∀ (shape : Shape) (start : Text), start <+: text → shape.Has start →
        start.length ≤ report.lexeme.length) ∧
      ∀ reserved : Kind, reserved.category = .keyword →
        (report.kind = reserved ↔ report.lexeme = reserved.name)) ∧
    (report.matched = false → ∃ byte rest, text = byte :: rest ∧
      report = ⟨.illegal, Lexer.codePoint byte, false⟩) := by
  intro report
  have longest (shape : Shape) (start : Text) (starts : start <+: text) (has : shape.Has start) :
      report.matched = true ∧ start.length ≤ report.lexeme.length := by
    obtain ⟨more, rfl⟩ := starts
    exact has.longest more
  have finds : Finds text report := finds_recognise nonempty
  generalize report = report at longest finds
  cases finds with
  | @lexeme shape lexeme has starts =>
      have nonempty' : lexeme ≠ [] := has.ne_nil
      have kinds (other : Shape) (has' : other.Has lexeme) :
          shape.kind lexeme = other.kind lexeme :=
        congrArg Report.kind (has.report_eq.symm.trans has'.report_eq)
      refine ⟨iff_of_true rfl ⟨shape, lexeme, nonempty', starts, has⟩, fun _ => ?_, nofun⟩
      exact ⟨nonempty', starts, ⟨shape, has, rfl⟩, kinds,
        fun other start starts' has' => (longest other start starts' has').2,
        fun _ => has.kind_eq_iff⟩
  | @illegal byte rest first =>
      refine ⟨iff_of_false nofun ?_, nofun, fun _ => ⟨byte, rest, first, rfl⟩⟩
      rintro ⟨shape, start, -, starts, has⟩
      cases (longest shape start starts has).1

/-- Of the lexemes at the start of `<=let` the longest is a symbol of two bytes. -/
theorem recognise_is_longest_match_lessEqual :
    let text : Text := "<=let"
    text ≠ [] ∧ (recognise text).report = ⟨.lessEqual, "<=", true⟩ ∧
      (∀ (shape : Shape) (start : Text), start <+: text → shape.Has start → start.length ≤ 2) ∧
      ∀ shape : Shape, shape.Has "<=" → shape.kind "<=" = .lessEqual := by
  intro text
  have nonempty : text ≠ [] := by decide
  have found : (recognise text).report = ⟨.lessEqual, "<=", true⟩ := by decide
  have longest := (recognise_is_longest_match nonempty).2.1
  rw [found] at longest
  obtain ⟨-, -, -, kinds, bound, -⟩ := longest rfl
  exact ⟨nonempty, found, bound, fun shape has => (kinds shape has).symm⟩

end Lexeme
end Siren
