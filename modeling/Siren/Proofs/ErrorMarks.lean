import Siren.Proofs.ContinuationLines
import Siren.Proofs.SourceLines
import Siren.Proofs.SyntaxErrorOrder

/-!
# The marks under syntax errors

A source with syntax errors is reported with the line of the first one and a mark under
its column.  The lexer counts lines and columns as it goes, and the line is found by
cutting the source at its line feeds, but both mean the same place: the first byte of the
token that the error is about.

The mark also stands under the right character, since all bytes in front of the token in
its line are ASCII.  Any other byte outside of a comment is an illegal token, and the first
error comes no later than the first of these; a comment has no token behind it in its line.
-/

namespace Siren

/-! ## The bytes of tokens -/

namespace Lexeme

theorem isBlank_of_isVisible {byte : UInt8} (visible : isVisible byte = true) :
    isBlank byte = false := by
  simp only [isVisible, isBlank, Bool.and_eq_true, decide_eq_true_eq, Bool.or_eq_false_iff,
    decide_eq_false_iff_not, UInt8.le_iff_toNat_le, ← UInt8.toNat_inj, UInt8.toNat_ofNat]
    at visible ⊢
  omega

theorem lt_of_isBlank {byte : UInt8} (blank : isBlank byte = true) : byte < 128 := by
  simp only [isBlank, Bool.or_eq_true, decide_eq_true_eq, ← UInt8.toNat_inj, UInt8.toNat_ofNat,
    UInt8.lt_iff_toNat_lt] at blank ⊢
  omega

theorem lt_of_isVisible {byte : UInt8} (visible : isVisible byte = true) : byte < 128 := by
  simp only [isVisible, Bool.and_eq_true, decide_eq_true_eq, UInt8.le_iff_toNat_le,
    UInt8.lt_iff_toNat_lt, UInt8.toNat_ofNat] at visible ⊢
  omega

theorem isVisible_of_mem_symbols {kind : Kind} (member : kind ∈ symbols) :
    ∀ byte ∈ kind.name, isVisible byte = true := by
  revert kind
  decide +kernel

theorem isVisible_of_isDigit {byte : UInt8} (digit : Text.isDigit byte = true) :
    isVisible byte = true :=
  isVisible_of_isWordByte (by rw [isWordByte, digit, Bool.or_true])

/-- All bytes of a lexeme are visible. -/
theorem isVisible_of_recognise
    {text lexeme : Text}
    {kind : Kind}
    (found : recognise text = .token kind lexeme) :
    ∀ byte ∈ lexeme, isVisible byte = true := by
  have shape := recognised text
  rw [found] at shape
  cases shape with
  | symbol member starts => exact isVisible_of_mem_symbols member
  | number => exact fun byte member => isVisible_of_isDigit (List.mem_takeWhile_imp member)
  | word => exact fun byte member => isVisible_of_isWordByte (List.mem_takeWhile_imp member)

/-- A blank is not illegal. -/
theorem isBlank_of_recognise_eq_illegal
    {text : Text}
    {byte : UInt8}
    (found : recognise text = .illegal byte) :
    isBlank byte = false := by
  have shape := recognised text
  rw [found] at shape
  cases shape with
  | illegal =>
      rw [Bool.eq_false_iff]
      intro blank
      rw [recognise, if_pos blank] at found
      cases found

end Lexeme

namespace Lexer

/-- The byte that a code point in UTF-8 has the number of. -/
def codeByte : Text → UInt8
  | [single] => single
  | [lead, low] => (lead <<< 6) ||| (low &&& 63)
  | _ => 0

/-- The lexeme of an illegal token tells its byte. -/
theorem codeByte_codePoint (byte : UInt8) : codeByte (codePoint byte) = byte := by
  have all : ∀ number : Fin 256, codeByte (codePoint (.ofFin number)) = .ofFin number := by
    decide +kernel
  exact all byte.toFin

end Lexer

/-- The lexeme of a token is made of visible bytes, or stands for a byte that is illegal and
not blank. -/
def Token.Visible (token : Token) : Prop :=
  if token.kind = .illegal then
    ∃ byte, token.lexeme = Lexer.codePoint byte ∧ Lexeme.isBlank byte = false
  else
    ∀ byte ∈ token.lexeme, Lexeme.isVisible byte = true

namespace Token

variable {token : Token} {word : Text}

/-- No byte of a token is blank. -/
theorem Visible.isBlank
    (visible : token.Visible)
    (spells : token.Spells word) :
    ∀ byte ∈ word, Lexeme.isBlank byte = false := by
  rw [Visible] at visible
  rw [Spells] at spells
  split at visible
  · rename_i illegal
    rw [if_pos illegal] at spells
    obtain ⟨byte, rfl, lexeme⟩ := spells
    obtain ⟨other, lexeme', nonblank⟩ := visible
    rw [lexeme'] at lexeme
    have same := congrArg Lexer.codeByte lexeme
    rw [Lexer.codeByte_codePoint, Lexer.codeByte_codePoint] at same
    exact List.forall_mem_singleton.mpr (same ▸ nonblank)
  · rename_i legal
    rw [if_neg legal] at spells
    subst spells
    exact fun byte member => Lexeme.isBlank_of_isVisible (visible byte member)

/-- A legal token is ASCII. -/
theorem Visible.ascii
    (visible : token.Visible)
    (spells : token.Spells word)
    (legal : token.kind ≠ .illegal) :
    ∀ byte ∈ word, byte < 128 := by
  rw [Visible, if_neg legal] at visible
  rw [Spells, if_neg legal] at spells
  subst spells
  exact fun byte member => Lexeme.lt_of_isVisible (visible byte member)

end Token

namespace Lexer

open Lexeme

/-- A signed number is a minus sign and digits. -/
theorem isVisible_of_signed?
    {lexer : Lexer}
    {lexeme : Text}
    (found : lexer.signed? = some lexeme) :
    ∀ byte ∈ lexeme, isVisible byte = true := by
  unfold signed? at found
  split at found
  · rename_i sign rest equal
    split at found
    · rename_i minus
      obtain rfl := Option.some.inj found
      rw [Bool.and_eq_true, Bool.and_eq_true, decide_eq_true_eq] at minus
      rw [List.forall_mem_cons, minus.1.1]
      exact ⟨rfl, fun byte member => isVisible_of_isDigit (List.mem_takeWhile_imp member)⟩
    · cases found
  · cases found

theorem visible_next (lexer : Lexer) : lexer.next.1.Visible := by
  fun_induction next lexer with
  | case1 lexer lexeme signed => exact isVisible_of_signed? signed
  | case2 lexer signed found => exact List.forall_mem_nil _
  | case3 lexer signed lexeme found length inductionHypothesis => exact inductionHypothesis
  | case4 lexer signed kind lexeme found =>
      change Token.Visible ⟨kind, lexeme, lexer.pos⟩
      rw [Token.Visible, if_neg (kind_ne_illegal_of_recognise found)]
      exact isVisible_of_recognise found
  | case5 lexer signed byte found => exact ⟨byte, rfl, isBlank_of_recognise_eq_illegal found⟩

end Lexer

/-! ## In front of a token -/

/-- The part of its line in front of a token is ASCII as far as a gap goes: a comment in the
gap runs up to a line feed. -/
theorem Lexeme.Gap.plainLine
    {before gap rest : Text}
    {first : UInt8}
    (blank : Gap (first :: rest) gap)
    (nonblank : isBlank first = false)
    (plain : before.PlainLine ∨ gap.head? = some Text.lineFeed) :
    (before ++ gap).PlainLine := by
  induction blank generalizing before with
  | none =>
      rw [List.append_nil]
      exact plain.resolve_right fun feed => nomatch feed
  | @blank byte gap blank more inductionHypothesis =>
      rw [List.append_cons]
      apply inductionHypothesis
      left
      apply Text.PlainLine.append_singleton
      rcases plain with plain | feed
      · exact .inr ⟨plain, lt_of_isBlank blank⟩
      · exact .inl (Option.some.inj feed)
  | @comment line gap single ends more inductionHypothesis =>
      rw [← List.append_assoc]
      apply inductionHypothesis
      right
      cases gap with
      | nil =>
          obtain rfl := ends first rfl
          cases nonblank
      | cons byte gap => exact congrArg some (ends byte rfl)

namespace Layout

variable {before left : Text} {tokens : List Token}

/-- A token with no illegal token before it: its text, and ASCII in front of it in its
line. -/
theorem exists_word
    (layout : Layout before tokens left)
    (visible : ∀ token ∈ tokens, token.Visible)
    (plain : before.PlainLine)
    {earlier later : List Token}
    {token : Token}
    (split : tokens = earlier ++ token :: later)
    (legal : ∀ token ∈ earlier, token.kind ≠ .illegal)
    (notEnd : token.kind ≠ .endOfInput) :
    ∃ front first word rest, left = front ++ first :: (word ++ rest) ∧
      token.pos = .behind (before ++ front) ∧ token.Spells (first :: word) ∧
      Lexeme.isBlank first = false ∧ (before ++ front).PlainLine := by
  induction layout generalizing earlier with
  | stop blank =>
      cases earlier with
      | nil =>
          obtain ⟨rfl, -⟩ := List.cons.inj split
          exact absurd rfl notEnd
      | cons _ earlier =>
          have short := (List.cons.inj split).2
          exact absurd short.symm (by simp)
  | @word before gap word rest token' tokens blank nonempty spells _ placed more
      inductionHypothesis =>
      rw [List.forall_mem_cons] at visible
      obtain ⟨first, word, rfl⟩ := List.exists_cons_of_ne_nil nonempty
      have nonblank := visible.1.isBlank spells first List.mem_cons_self
      have front : (before ++ gap).PlainLine := blank.plainLine nonblank (.inl plain)
      cases earlier with
      | nil =>
          obtain ⟨rfl, -⟩ := List.cons.inj split
          exact ⟨gap, first, word, rest, rfl, placed, spells, nonblank, front⟩
      | cons _ earlier =>
          obtain ⟨rfl, split'⟩ := List.cons.inj split
          rw [List.forall_mem_cons] at legal
          have passed := front.append (visible.1.ascii spells legal.1)
          obtain ⟨front', first', word', rest', equal, placed', found⟩ :=
            inductionHypothesis visible.2 passed split' legal.2
          rw [List.append_assoc, List.append_assoc] at placed' found
          refine ⟨gap ++ (first :: word ++ front'), first', word', rest', ?_, placed', found⟩
          rw [equal, List.append_assoc, List.append_assoc]

end Layout

namespace Program

variable {source : Text} {error : SyntaxError} {others : List SyntaxError}

/-- The first error is about a token with no illegal token before it. -/
theorem exists_first_token (failed : (ofText source).errors = error :: others) :
    ∃ earlier token later, Token.ofText source = earlier ++ token :: later ∧
      error.IsAbout token ∧ ∀ token ∈ earlier, token.kind ≠ .illegal := by
  have layout : Layout [] (Token.ofText source) source := Lexer.layout_tokenize rfl
  have member : error ∈ (ofText source).errors := by
    rw [failed]
    exact List.mem_cons_self
  obtain ⟨token, inside, about⟩ := (inOrder_errors source).exists_token member
  obtain ⟨earlier, later, split⟩ := List.append_of_mem inside
  refine ⟨earlier, token, later, split, about, ?_⟩
  intro illegal before kind
  have member' : illegal ∈ Token.ofText source := by
    rw [split]
    exact List.mem_append_left _ before
  obtain ⟨error', others', failed', behind⟩ := exists_error_of_illegal member' kind
  obtain rfl := (List.cons.inj (failed.symm.trans failed')).1
  have below := layout.offset_lt split before List.mem_cons_self
  rw [about.pos_eq] at behind
  exact Nat.not_le_of_lt below behind

/-- The first error stands behind a part of the source: behind all of it, or behind a part
that ends in ASCII and in front of the token that the error is about. -/
theorem exists_first_place (failed : (ofText source).errors = error :: others) :
    ∃ token front after, token ∈ Token.ofText source ∧ error.IsAbout token ∧
      source = front ++ after ∧ error.pos = .behind front ∧
      (token.kind = .endOfInput → after = []) ∧
      (token.kind ≠ .endOfInput → ∃ first word rest, after = first :: (word ++ rest) ∧
        token.Spells (first :: word) ∧ Lexeme.isBlank first = false ∧ front.PlainLine) := by
  have layout : Layout [] (Token.ofText source) source := Lexer.layout_tokenize rfl
  obtain ⟨earlier, token, later, split, about, legal⟩ := exists_first_token failed
  have member : token ∈ Token.ofText source := by
    rw [split]
    exact List.mem_append_right _ List.mem_cons_self
  by_cases ends : token.kind = .endOfInput
  · have stop := layout.pos_of_endOfInput member ends
    rw [← about.pos_eq] at stop
    exact ⟨token, source, [], member, about, (List.append_nil source).symm, stop, fun _ => rfl,
      fun other => absurd ends other⟩
  · have visible : ∀ token ∈ Token.ofText source, token.Visible :=
      Lexer.forall_mem_tokenize Lexer.visible_next _
    obtain ⟨front, first, word, rest, whole, placed, spells, nonblank, plain⟩ :=
      layout.exists_word visible .nil split legal ends
    rw [← about.pos_eq] at placed
    exact ⟨token, front, _, member, about, whole, placed, fun other => absurd other ends,
      fun _ => ⟨first, word, rest, rfl, spells, nonblank, plain⟩⟩

end Program

namespace Style

/-- The context of a position that lies in a piece of the source. -/
theorem caret_eq
    {source piece : Text}
    {line : Int}
    (positive : 1 ≤ line)
    (found : source.lines[(line - 1).toNat]? = some piece)
    (color : Bool)
    (column : Int) :
    caret color source line column =
      tint color .gray piece.trimCarriageReturns ++ [Text.lineFeed] ++
        List.replicate (column - 1).toNat Text.space ++ tint color .yellow "^" := by
  rw [caret, if_neg (Int.not_lt.mpr positive), found]

theorem caret_ne_nil
    {source piece : Text}
    {line : Int}
    (positive : 1 ≤ line)
    (found : source.lines[(line - 1).toNat]? = some piece)
    (color : Bool)
    (column : Int) :
    caret color source line column ≠ [] := by
  rw [caret_eq positive found]
  apply List.append_ne_nil_of_left_ne_nil
  apply List.append_ne_nil_of_left_ne_nil
  exact List.append_ne_nil_of_right_ne_nil _ (List.cons_ne_nil _ _)

end Style

/-- A source with syntax errors is shown with the line of the first one and a mark under
its column.  The line is one of the source, so the context is never empty.  When the error
is about a token of the source, the column lies in the part of the line that is shown, the
token starts with the byte there, and all bytes in front of it are ASCII, so that the mark
stands under the first character of the token.  When the error is about the end of the
input, the line is the last one and the mark stands behind all of its bytes, those not shown
included. -/
theorem carets_stand_under_first_errors
    {source : Text}
    {error : SyntaxError}
    {others : List SyntaxError}
    (failed : (Program.ofText source).errors = error :: others) :
    let line := error.pos.line
    let column := error.pos.column
    1 ≤ line ∧ line ≤ source.lines.length ∧ 1 ≤ column ∧
    ∃ piece token, source.lines[(line - 1).toNat]? = some piece ∧
      token ∈ Token.ofText source ∧ error.IsAbout token ∧
      let shown := piece.trimCarriageReturns
      (∀ color, Style.caret color source line column =
          Style.tint color .gray shown ++ [Text.lineFeed] ++
            List.replicate (column - 1).toNat Text.space ++ Style.tint color .yellow "^" ∧
        Style.caret color source line column ≠ []) ∧
      (token.kind ≠ .endOfInput → ∃ first word,
        token.Spells (first :: word) ∧ first :: word <+: source.drop error.pos.offset ∧
        column ≤ shown.length ∧ shown[(column - 1).toNat]? = some first ∧
        ∀ byte ∈ shown.take (column - 1).toNat, byte < 128) ∧
      (token.kind = .endOfInput → line = source.lines.length ∧ column - 1 = piece.length) := by
  intro line column
  obtain ⟨token, front, after, member, about, whole, placed, ends, starts⟩ :=
    Program.exists_first_place failed
  have bounds := Position.behind_bounds front after
  have place := Position.getElem?_lines_behind front after
  rw [← whole, ← placed] at bounds place
  refine ⟨bounds.1, bounds.2.1, bounds.2.2, _, token, place.1, member, about, fun color => ?_,
    fun notEnd => ?_, fun isEnd => ?_⟩
  · exact ⟨Style.caret_eq bounds.1 place.1 color column,
      Style.caret_ne_nil bounds.1 place.1 color column⟩
  · obtain ⟨first, word, rest, rfl, spells, nonblank, plain⟩ := starts notEnd
    obtain ⟨inside, under, ascii⟩ := plain.shown nonblank (word ++ rest)
    have offset : error.pos.offset = front.length := congrArg Position.offset placed
    have part : first :: word <+: source.drop error.pos.offset := by
      rw [offset, whole, List.drop_left]
      exact ⟨rest, rfl⟩
    refine ⟨first, word, spells, part, ?_⟩
    rw [place.2]
    exact ⟨by omega, under, ascii⟩
  · obtain rfl := ends isEnd
    rw [List.append_nil] at whole
    rw [List.takeWhile_nil, List.append_nil]
    have last : line = 1 + source.count Text.lineFeed := by
      rw [whole]
      exact congrArg Position.line placed
    rw [Text.length_lines]
    exact ⟨by omega, by omega⟩

/-- A comment that is not ASCII, and lines that end with carriage returns: a name is missing
in the second one, and the mark stands under the token that is there instead. -/
theorem carets_stand_under_first_errors_assign :
    let source : Text := "// é\r\nlet = 1;\r\n@"
    let token : Token := ⟨.assign, "=", ⟨2, 5, 11⟩⟩
    let error : SyntaxError := .about token (.missing .identifier token)
    (∃ others, (Program.ofText source).errors = error :: others) ∧
    Style.caret false source 2 5 = Text.ofString "let = 1;\n    ^" ∧
    ∃ piece first, source.lines[1]? = some piece ∧ piece.trimCarriageReturns[4]? = some first ∧
      ∀ byte ∈ piece.trimCarriageReturns.take 4, byte < 128 := by
  intro source token error
  have failed : (Program.ofText source).errors =
      error :: (Program.ofText source).errors.tail := by decide +kernel
  refine ⟨⟨_, failed⟩, by decide +kernel, ?_⟩
  obtain ⟨-, -, -, piece, about, found, -, isAbout, -, inside, -⟩ :=
    carets_stand_under_first_errors failed
  have notEnd : about.kind ≠ .endOfInput := by
    rw [Ne, ← isAbout.incomplete_iff]
    decide
  obtain ⟨first, _, -, -, -, under, ascii⟩ := inside notEnd
  exact ⟨piece, first, found, under, ascii⟩

end Siren
