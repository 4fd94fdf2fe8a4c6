import Mathlib.Data.List.TakeWhile
import Siren.Proofs.LexerExtension

/-!
# Where the tokens of a source text stand

The tokens of a source text lie one after the other in it, with gaps of blanks
and comments between them, and nothing of the text is left over.  Each token
carries the position at which its text starts: line feeds before it are counted
for its line, and the bytes after the last of them for its column.
-/

namespace Siren

namespace Position

/-- The position behind a text at the start of a source. -/
def behind (text : Text) : Position where
  line := 1 + text.count Text.lineFeed
  column := 1 + (text.reverse.takeWhile (· ≠ Text.lineFeed)).length
  offset := text.length

theorem behind_append_singleton (text : Text) (byte : UInt8) :
    behind (text ++ [byte]) = (behind text).step byte := by
  unfold behind step
  split
  · rename_i feed
    simp [feed]
    omega
  · rename_i other
    simp [other]
    omega

/-- Stepping over the bytes of a text leads to the position behind it. -/
theorem behind_append (before text : Text) :
    behind (before ++ text) = (behind before).advance text := by
  induction text generalizing before with
  | nil => rw [List.append_nil, advance_nil]
  | cons byte text inductionHypothesis =>
      rw [advance_cons, ← behind_append_singleton, ← inductionHypothesis, List.append_assoc,
        List.singleton_append]

/-- Stepping over a text goes down by its line feeds. -/
theorem line_advance_eq_add (text : Text) (pos : Position) :
    (pos.advance text).line = pos.line + text.count Text.lineFeed := by
  induction text generalizing pos with
  | nil => simp
  | cons byte text inductionHypothesis =>
      rw [advance_cons, inductionHypothesis, step, List.count_cons]
      split
      · rename_i feed
        simp only [feed, beq_self_eq_true, if_true, Int.natCast_add, Int.natCast_one]
        omega
      · rename_i other
        simp [other]

end Position

namespace Lexeme

/-- Blanks and comments in front of a text.  A comment runs up to a line feed or
the end of the source, so what stands behind it matters. -/
inductive Gap (following : Text) : Text → Prop where
  | none : Gap following []
  | blank {byte : UInt8} {gap : Text}
      (blank : isBlank byte = true)
      (more : Gap following gap) :
      Gap following (byte :: gap)
  | comment {line gap : Text}
      (single : Text.lineFeed ∉ line)
      (ends : ∀ byte ∈ (gap ++ following).head?, byte = Text.lineFeed)
      (more : Gap following gap) :
      Gap following (Text.ofString "//" ++ line ++ gap)

/-- Blanks may stand in front of a gap. -/
theorem Gap.blanks
    {following blanks gap : Text}
    (blank : ∀ byte ∈ blanks, isBlank byte = true)
    (more : Gap following gap) :
    Gap following (blanks ++ gap) := by
  induction blanks with
  | nil => exact more
  | cons byte blanks inductionHypothesis =>
      rw [List.forall_mem_cons] at blank
      exact .blank blank.1 (inductionHypothesis blank.2)

/-- The line of a comment ends before a line feed or with the text. -/
theorem head?_of_takeWhile
    {lexeme rest : Text}
    (run : (lexeme ++ rest).takeWhile (· ≠ Text.lineFeed) = lexeme) :
    ∀ byte ∈ rest.head?, byte = Text.lineFeed := by
  have whole : (lexeme ++ rest).takeWhile (· ≠ Text.lineFeed) ++
      (lexeme ++ rest).dropWhile (· ≠ Text.lineFeed) = lexeme ++ rest :=
    List.takeWhile_append_dropWhile
  rw [run] at whole
  have left := List.append_cancel_left whole
  intro byte member
  have stops := List.head?_dropWhile_not (· ≠ Text.lineFeed) (lexeme ++ rest)
  rw [left, member] at stops
  simpa using stops

/-- What can stand at the start of a text. -/
inductive Recognised : Text → Found → Prop where
  | nothing : Recognised [] .nothing
  | blanks {text : Text} : Recognised text (.gap (text.takeWhile isBlank))
  | comment {text : Text}
      (slashes : Text.ofString "//" <+: text) :
      Recognised text (.gap (text.takeWhile (· ≠ Text.lineFeed)))
  | symbol {text : Text} {kind : Kind}
      (member : kind ∈ symbols)
      (starts : kind.name <+: text) :
      Recognised text (.token kind kind.name)
  | number {text : Text} : Recognised text (.token .integer (text.takeWhile Text.isDigit))
  | word {text : Text} :
      Recognised text
        (.token (wordKind (text.takeWhile isWordByte)) (text.takeWhile isWordByte))
  | illegal {byte : UInt8} {text : Text} : Recognised (byte :: text) (.illegal byte)

theorem recognised (text : Text) : Recognised text (recognise text) := by
  cases text with
  | nil => exact .nothing
  | cons byte rest =>
      simp only [recognise]
      split
      · exact .blanks
      · split
        · rename_i slashes
          exact .comment (List.isPrefixOf_iff_prefix.mp slashes)
        · split
          · rename_i kind found
            have starts := List.find?_some found
            exact .symbol (List.mem_of_find?_eq_some found)
              (List.isPrefixOf_iff_prefix.mp starts)
          · split
            · exact .number
            · split
              · exact .word
              · exact .illegal

/-- What is recognised as a gap may stand in front of a gap. -/
theorem gap_of_recognise
    {text lexeme gap following : Text}
    (found : recognise text = .gap lexeme)
    (left : text = lexeme ++ (gap ++ following))
    (more : Gap following gap) :
    Gap following (lexeme ++ gap) := by
  have shape := recognised text
  rw [found] at shape
  cases shape with
  | blanks => exact more.blanks fun byte member => List.mem_takeWhile_imp member
  | comment slashes =>
      obtain ⟨behind, equal⟩ := slashes
      have line : text.takeWhile (· ≠ Text.lineFeed) =
          Text.ofString "//" ++ behind.takeWhile (· ≠ Text.lineFeed) := by
        rw [← equal]
        exact List.takeWhile_append_of_pos (List.all_eq_true.mp rfl)
      have ends := head?_of_takeWhile (congrArg (List.takeWhile (· ≠ Text.lineFeed)) left.symm)
      rw [line]
      refine .comment (fun member => ?_) ends more
      simpa using List.mem_takeWhile_imp member

/-- The bytes that are recognised. -/
def Found.text : Found → Text
  | .nothing => []
  | .gap lexeme => lexeme
  | .token _ lexeme => lexeme
  | .illegal byte => [byte]

/-- What is recognised stands at the start of the text. -/
theorem text_recognise_prefix (text : Text) : (recognise text).text <+: text := by
  have shape := recognised text
  generalize recognise text = found at shape
  cases shape with
  | nothing => exact List.nil_prefix
  | blanks => exact List.takeWhile_prefix _
  | comment _ => exact List.takeWhile_prefix _
  | symbol _ starts => exact starts
  | number => exact List.takeWhile_prefix _
  | word => exact List.takeWhile_prefix _
  | illegal => exact ⟨_, rfl⟩

theorem wordKind_ne_illegal (word : Text) : wordKind word ≠ .illegal := by
  unfold wordKind
  cases reserved : Kind.ofWord? word with
  | none => exact Kind.noConfusion
  | some kind =>
      have listed := List.mem_of_find?_eq_some reserved
      rintro rfl
      simp at listed

/-- An illegal byte is no symbol, number or word. -/
theorem kind_ne_illegal_of_recognise
    {text lexeme : Text}
    {kind : Kind}
    (found : recognise text = .token kind lexeme) :
    kind ≠ .illegal := by
  have shape := recognised text
  rw [found] at shape
  cases shape with
  | symbol member _ =>
      rintro rfl
      exact absurd member (by decide)
  | number => exact Kind.noConfusion
  | word => exact wordKind_ne_illegal _

end Lexeme

/-! ## One token -/

/-- A token stands for a text of the source: for its lexeme, or an illegal token
for the byte with the number of the code point that is its lexeme. -/
def Token.Spells (token : Token) (word : Text) : Prop :=
  if token.kind = .illegal then
    ∃ byte, word = [byte] ∧ token.lexeme = Lexer.codePoint byte
  else
    word = token.lexeme

namespace Lexer

open Lexeme

/-- A token taken from what is left of a source, and the lexer behind it. -/
inductive Takes (lexer : Lexer) : Token × Lexer → Prop where
  /-- Only a gap is left. -/
  | stop
      (gap : Gap [] lexer.rest) :
      Takes lexer (.endAt (lexer.pos.advance lexer.rest),
        ⟨[], lexer.pos.advance lexer.rest, .endOfInput⟩)
  /-- A gap is left, and then the text of a token. -/
  | word {gap word rest : Text} {token : Token}
      (left : lexer.rest = gap ++ (word ++ rest))
      (blank : Gap (word ++ rest) gap)
      (nonempty : word ≠ [])
      (spells : token.Spells word)
      (notEnd : token.kind ≠ .endOfInput)
      (placed : token.pos = lexer.pos.advance gap) :
      Takes lexer (token, ⟨rest, lexer.pos.advance (gap ++ word), token.kind⟩)

/-- A gap in front makes no difference to the token taken. -/
theorem Takes.of_skip
    {lexer : Lexer}
    {lexeme : Text}
    {result : Token × Lexer}
    (found : recognise lexer.rest = .gap lexeme)
    (takes : Takes (lexer.skip lexeme.length) result) :
    Takes lexer result := by
  have starts := text_recognise_prefix lexer.rest
  rw [found] at starts
  obtain ⟨tail, whole⟩ : lexeme <+: lexer.rest := starts
  have skipped : lexer.skip lexeme.length = ⟨tail, lexer.pos.advance lexeme, lexer.last⟩ := by
    simp [skip, ← whole]
  rw [skipped] at takes
  cases takes with
  | stop gap =>
      have blank := gap_of_recognise found (by simpa using whole.symm) gap
      rw [← Position.advance_append]
      rw [whole] at blank ⊢
      exact .stop blank
  | word left blank nonempty spells notEnd placed =>
      rename_i gap word rest token
      obtain rfl : tail = gap ++ (word ++ rest) := left
      rw [← Position.advance_append, ← List.append_assoc]
      refine .word ?_ (gap_of_recognise found whole.symm blank) nonempty spells notEnd ?_
      · rw [← whole, List.append_assoc]
      · rw [placed, Position.advance_append]

/-- The text of a token at the start of what is left. -/
theorem takes_emit
    {lexer : Lexer}
    {kind : Kind}
    {lexeme word : Text}
    (starts : word <+: lexer.rest)
    (nonempty : word ≠ [])
    (spells : Token.Spells ⟨kind, lexeme, lexer.pos⟩ word)
    (notEnd : kind ≠ .endOfInput) :
    Takes lexer (lexer.emit kind lexeme word.length) := by
  obtain ⟨rest, whole⟩ := starts
  have emitted : lexer.emit kind lexeme word.length =
      (⟨kind, lexeme, lexer.pos⟩, ⟨rest, lexer.pos.advance ([] ++ word), kind⟩) := by
    simp [emit, ← whole]
  rw [emitted]
  exact .word (by simpa using whole.symm) .none nonempty spells notEnd rfl

theorem prefix_of_signed?
    {lexer : Lexer}
    {lexeme : Text}
    (found : lexer.signed? = some lexeme) :
    lexeme <+: lexer.rest ∧ lexeme ≠ [] := by
  unfold signed? at found
  split at found
  · rename_i sign rest equal
    split at found
    · obtain rfl := Option.some.inj found
      rw [equal]
      exact ⟨List.cons_prefix_cons.mpr ⟨rfl, List.takeWhile_prefix _⟩, List.cons_ne_nil _ _⟩
    · cases found
  · cases found

theorem takes_next (lexer : Lexer) : Takes lexer lexer.next := by
  fun_induction next lexer with
  | case1 lexer lexeme signed =>
      obtain ⟨starts, nonempty⟩ := prefix_of_signed? signed
      exact takes_emit starts nonempty rfl Kind.noConfusion
  | case2 lexer signed found =>
      have none := eq_nil_of_recognise_eq_nothing found
      have ended : lexer.emit .endOfInput [] 0 =
          (.endAt (lexer.pos.advance lexer.rest),
            ⟨[], lexer.pos.advance lexer.rest, .endOfInput⟩) := by
        simp [emit, none, Token.endAt]
      rw [ended]
      apply Takes.stop
      rw [none]
      exact .none
  | case3 lexer signed lexeme found length inductionHypothesis =>
      exact inductionHypothesis.of_skip found
  | case4 lexer signed kind lexeme found =>
      have starts := text_recognise_prefix lexer.rest
      rw [found] at starts
      have nonempty := List.length_pos_iff.mp (length_token found).1
      have spells : Token.Spells ⟨kind, lexeme, lexer.pos⟩ lexeme := by
        rw [Token.Spells, if_neg (kind_ne_illegal_of_recognise found)]
      exact takes_emit starts nonempty spells (kind_ne_endOfInput_of_recognise found)
  | case5 lexer signed byte found =>
      have starts := text_recognise_prefix lexer.rest
      rw [found] at starts
      have spells : Token.Spells ⟨.illegal, codePoint byte, lexer.pos⟩ [byte] :=
        ⟨byte, rfl, rfl⟩
      exact takes_emit starts (List.cons_ne_nil byte []) spells Kind.noConfusion

end Lexer

/-! ## All tokens -/

/-- Tokens that lie in what is left of a source, behind the part `before` of it:
gaps with the texts of the tokens between them, each token with the position
where its text starts, and after the last gap the end of the input. -/
inductive Layout : (before : Text) → List Token → (left : Text) → Prop where
  | stop {before gap : Text}
      (blank : Lexeme.Gap [] gap) :
      Layout before [.endAt (.behind (before ++ gap))] gap
  | word {before gap word rest : Text} {token : Token} {tokens : List Token}
      (blank : Lexeme.Gap (word ++ rest) gap)
      (nonempty : word ≠ [])
      (spells : token.Spells word)
      (notEnd : token.kind ≠ .endOfInput)
      (placed : token.pos = .behind (before ++ gap))
      (more : Layout (before ++ gap ++ word) tokens rest) :
      Layout before (token :: tokens) (gap ++ (word ++ rest))

/-- The tokens from a place on lie in what is left there. -/
theorem Lexer.layout_tokenize
    {lexer : Lexer}
    {before : Text}
    (place : lexer.pos = .behind before) :
    Layout before lexer.tokenize.1 lexer.rest := by
  have takes := lexer.takes_next
  rw [tokenize]
  split
  · rename_i ended
    generalize lexer.next = result at takes ended
    cases takes with
    | stop gap =>
        rw [place, ← Position.behind_append]
        exact .stop gap
    | word _ _ _ _ notEnd _ => exact absurd ended notEnd
  · rename_i more
    have shorter := lexer.length_rest_next_lt more
    dsimp only
    generalize lexer.next = result at takes more shorter
    cases takes with
    | stop gap => exact absurd rfl more
    | word left blank nonempty spells notEnd placed =>
        rw [left]
        refine .word blank nonempty spells notEnd ?_ (layout_tokenize ?_)
        · rw [placed, place, Position.behind_append]
        · rw [place, List.append_assoc, Position.behind_append]
termination_by lexer.rest.length

namespace Layout

variable {before left : Text} {tokens : List Token}

/-- Only the last token is the end of the input, behind everything. -/
theorem exists_stop (layout : Layout before tokens left) :
    ∃ words, tokens = words ++ [.endAt (.behind (before ++ left))] ∧
      ∀ token ∈ words, token.kind ≠ .endOfInput := by
  induction layout with
  | stop blank => exact ⟨[], rfl, by simp⟩
  | word blank nonempty spells notEnd placed more inductionHypothesis =>
      obtain ⟨words, equal, others⟩ := inductionHypothesis
      refine ⟨_ :: words, ?_, List.forall_mem_cons.mpr ⟨notEnd, others⟩⟩
      rw [equal, List.cons_append, List.append_assoc, List.append_assoc]

/-- The end of the input stands behind everything. -/
theorem pos_of_endOfInput
    (layout : Layout before tokens left)
    {token : Token}
    (member : token ∈ tokens)
    (ends : token.kind = .endOfInput) :
    token.pos = .behind (before ++ left) := by
  obtain ⟨words, rfl, others⟩ := layout.exists_stop
  rcases List.mem_append.mp member with inside | last
  · exact absurd ends (others token inside)
  · rw [List.mem_singleton.mp last]
    rfl

/-- Each token stands behind a part of the source that reaches at least as far
as `before`. -/
theorem exists_behind
    (layout : Layout before tokens left)
    {token : Token}
    (member : token ∈ tokens) :
    ∃ gap, gap <+: left ∧ token.pos = .behind (before ++ gap) := by
  induction layout with
  | stop blank =>
      rw [List.mem_singleton] at member
      rw [member]
      exact ⟨_, List.prefix_rfl, rfl⟩
  | word blank nonempty spells notEnd placed more inductionHypothesis =>
      rename_i gap word rest _ _
      rcases List.mem_cons.mp member with rfl | later
      · exact ⟨gap, List.prefix_append _ _, placed⟩
      · obtain ⟨part, starts, placed'⟩ := inductionHypothesis later
        refine ⟨gap ++ (word ++ part), ?_, ?_⟩
        · rw [List.prefix_append_right_inj, List.prefix_append_right_inj]
          exact starts
        · rw [placed', List.append_assoc, List.append_assoc]

/-- Tokens stand behind one another. -/
theorem offsets_increase (layout : Layout before tokens left) :
    (tokens.map (·.pos.offset)).Pairwise (· < ·) := by
  induction layout with
  | stop blank => exact List.pairwise_singleton _ _
  | word blank nonempty spells notEnd placed more inductionHypothesis =>
      rename_i before gap word rest token tokens
      rw [List.map_cons, List.pairwise_cons]
      refine ⟨?_, inductionHypothesis⟩
      intro offset member
      obtain ⟨later, present, rfl⟩ := List.mem_map.mp member
      obtain ⟨gap', _, placed'⟩ := more.exists_behind present
      have positive := List.length_pos_iff.mpr nonempty
      simp only [placed, placed', Position.behind, List.length_append]
      omega

/-- A token stands before those of a later part. -/
theorem offset_lt
    (layout : Layout before tokens left)
    {earlier later : List Token}
    (split : tokens = earlier ++ later)
    {first second : Token}
    (member : first ∈ earlier)
    (member' : second ∈ later) :
    first.pos.offset < second.pos.offset := by
  have increase := layout.offsets_increase
  rw [split, List.map_append, List.pairwise_append] at increase
  exact increase.2.2 _ (List.mem_map_of_mem member) _ (List.mem_map_of_mem member')

end Layout

/-- The source is the texts of its tokens with gaps of blanks and comments
between them.  The end of the input is the last token and no other, behind the
last byte.  Offsets increase, and for every token the line feeds before its
offset give its line, and the bytes after the last of them its column. -/
theorem tokens_lie_in_source (source : Text) :
    Layout [] (Token.ofText source) source ∧
    (∃ words stop, Token.ofText source = words ++ [stop] ∧
      (∀ token ∈ words, token.kind ≠ .endOfInput) ∧
      stop.kind = .endOfInput ∧ stop.pos.offset = source.length) ∧
    ((Token.ofText source).map (·.pos.offset)).Pairwise (· < ·) ∧
    ∀ token ∈ Token.ofText source,
      let before := source.take token.pos.offset
      token.pos.line = 1 + before.count Text.lineFeed ∧
      token.pos.column = 1 + (before.reverse.takeWhile (· ≠ Text.lineFeed)).length := by
  have layout : Layout [] (Token.ofText source) source := Lexer.layout_tokenize rfl
  refine ⟨layout, ?_, layout.offsets_increase, ?_⟩
  · obtain ⟨words, equal, others⟩ := layout.exists_stop
    exact ⟨words, _, equal, others, rfl, rfl⟩
  · intro token member before
    obtain ⟨gap, ⟨rest, whole⟩, placed⟩ := layout.exists_behind member
    have part : before = gap := by
      simp only [before, placed, Position.behind, List.nil_append, ← whole, List.take_left]
    rw [part, placed]
    exact ⟨rfl, rfl⟩

end Siren
