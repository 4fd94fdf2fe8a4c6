import Siren.Proofs.IntegerLiterals
import Siren.Proofs.LexerRequests
import Siren.Proofs.LongestMatch
import Siren.Proofs.TokensAmongBlanks

/-!
# Gaps between tokens

Which token stands at a place depends on its own text, on the token before it, and of what
follows only on the first byte.  A blank there never goes on with a token, so the tokens of
a source stay the same when the gaps between them are exchanged for others that start with
a blank.
-/

namespace Siren

/-! ## Lexemes before another rest -/

namespace Lexeme

/-- A rest starts with the same byte as another one, or with a blank, or is empty. -/
def Exchanges (rest rest' : Text) : Prop :=
  rest'.head? = rest.head? ∨ ∀ byte ∈ rest'.head?, isBlank byte = true

variable {word rest rest' : Text}

/-- A run of visible bytes that ends before a rest ends before an exchanged one too. -/
theorem Exchanges.stops
    (exchanges : Exchanges rest rest')
    {select : UInt8 → Bool}
    (visible : ∀ byte, select byte = true → isVisible byte = true)
    (stops : ∀ byte ∈ rest.head?, select byte = false) :
    ∀ byte ∈ rest'.head?, select byte = false := by
  intro byte heads
  rcases exchanges with same | blank
  · exact stops byte (same ▸ heads)
  · rw [Bool.eq_false_iff]
    intro selected
    cases (isBlank_of_isVisible (visible byte selected)).symm.trans (blank byte heads)

/-- A run of visible bytes stays the same before an exchanged rest. -/
theorem Exchanges.takeWhile_eq
    (exchanges : Exchanges rest rest')
    {select : UInt8 → Bool}
    (visible : ∀ byte, select byte = true → isVisible byte = true)
    (run : (word ++ rest).takeWhile select = word) :
    (word ++ rest').takeWhile select = word := by
  have selected : ∀ byte ∈ word, select byte = true := fun byte member =>
    List.mem_takeWhile_imp (run.symm ▸ member)
  rw [List.takeWhile_append_of_pos selected, List.append_right_eq_self] at run
  refine takeWhile_append_of_delimits selected (exchanges.stops visible fun byte heads => ?_)
  cases rest with
  | nil => cases heads
  | cons first others =>
      obtain rfl := Option.some.inj heads
      by_contra goesOn
      rw [List.takeWhile_cons_of_pos (by simpa using goesOn)] at run
      cases run

theorem Exchanges.head?_any
    (exchanges : Exchanges rest rest')
    {select : UInt8 → Bool}
    (visible : ∀ byte, select byte = true → isVisible byte = true)
    (selected : (word ++ rest').head?.any select = true) :
    (word ++ rest).head?.any select = true := by
  cases word with
  | cons first others => exact selected
  | nil =>
      rw [List.nil_append, Option.any_eq_true] at selected ⊢
      obtain ⟨byte, heads, selected⟩ := selected
      rcases exchanges with same | blank
      · exact ⟨byte, same ▸ heads, selected⟩
      · cases (isBlank_of_isVisible (visible byte selected)).symm.trans (blank byte heads)

/-- A spelling of at most two bytes, all of them visible, that starts a word before an
exchanged rest starts the word before the first rest too. -/
theorem Exchanges.startsWith
    (exchanges : Exchanges rest rest')
    {spelling : Text}
    (short : spelling.length ≤ 2)
    (visible : ∀ byte ∈ spelling, isVisible byte = true)
    (nonempty : word ≠ [])
    (starts : Text.startsWith (word ++ rest') spelling = true) :
    Text.startsWith (word ++ rest) spelling = true := by
  obtain ⟨first, others, rfl⟩ := List.exists_cons_of_ne_nil nonempty
  match spelling, others with
  | [], _ => rfl
  | [_], _ => simpa [Text.startsWith, List.isPrefixOf] using starts
  | [_, _], _ :: _ => simpa [Text.startsWith, List.isPrefixOf] using starts
  | [_, second], [] =>
      -- The second byte of the spelling is the first one of the rest.
      obtain ⟨more, whole⟩ := List.isPrefixOf_iff_prefix.mp starts
      obtain ⟨rfl, rfl⟩ : _ ∧ second :: more = rest' := List.cons.inj whole
      have heads : second ∈ (second :: more).head? := rfl
      have seen := visible second (List.mem_cons_of_mem _ List.mem_cons_self)
      rcases exchanges with same | blank
      · obtain ⟨later, rfl⟩ := List.head?_eq_some_iff.mp (same ▸ heads)
        simp [Text.startsWith, List.isPrefixOf]
      · cases (isBlank_of_isVisible seen).symm.trans (blank second heads)
  | _ :: _ :: _ :: _, _ => simp at short

/-- The first symbol that starts a word does so before an exchanged rest too. -/
theorem Exchanges.find?_symbols
    (exchanges : Exchanges rest rest')
    (nonempty : word ≠ [])
    (whole : ∀ kind, (symbols.find? fun kind => Text.startsWith (word ++ rest) kind.name) =
      some kind → kind.name = word) :
    (symbols.find? fun kind => Text.startsWith (word ++ rest') kind.name) =
      symbols.find? fun kind => Text.startsWith (word ++ rest) kind.name := by
  have starts (kind : Kind) (member : kind ∈ symbols)
      (starts' : Text.startsWith (word ++ rest') kind.name = true) :
      Text.startsWith (word ++ rest) kind.name = true :=
    exchanges.startsWith (length_name_le_two kind member) (isVisible_of_mem_symbols member)
      nonempty starts'
  cases found : symbols.find? fun kind => Text.startsWith (word ++ rest) kind.name with
  | none =>
      rw [List.find?_eq_none] at found ⊢
      exact fun kind member starts' => found kind member (starts kind member starts')
  | some kind =>
      obtain ⟨-, before, after, split, unfit⟩ := List.find?_eq_some_iff_append.mp found
      rw [List.find?_eq_some_iff_append]
      refine ⟨?_, before, after, split, fun earlier member => ?_⟩
      · rw [whole kind found]
        exact List.isPrefixOf_iff_prefix.mpr (List.prefix_append word rest')
      · have misfit := unfit earlier member
        rw [Bool.not_eq_true', Bool.eq_false_iff] at misfit ⊢
        exact mt (starts earlier (split ▸ List.mem_append_left _ member)) misfit

/-- What is found at the start of a text, if it is no gap, is found before an exchanged rest
too. -/
theorem recognise_of_exchanges
    (exchanges : Exchanges rest rest')
    (nonempty : word ≠ [])
    {found : Found}
    (stands : recognise (word ++ rest) = found)
    (whole : found.text = word)
    (noGap : ∀ lexeme, found ≠ .gap lexeme) :
    recognise (word ++ rest') = found := by
  subst stands
  have slashes : Text.startsWith (word ++ rest') "//" = true →
      Text.startsWith (word ++ rest) "//" = true :=
    exchanges.startsWith (by decide) (by decide +kernel) nonempty
  have symbol := exchanges.find?_symbols nonempty
  have run {select : UInt8 → Bool} (visible : ∀ byte, select byte = true → isVisible byte = true)
      (whole : (word ++ rest).takeWhile select = word) :
      (word ++ rest').takeWhile select = (word ++ rest).takeWhile select :=
    (exchanges.takeWhile_eq visible whole).trans whole.symm
  obtain ⟨first, others, rfl⟩ := List.exists_cons_of_ne_nil nonempty
  simp only [List.cons_append] at *
  by_cases blank : isBlank first = true
  · exact absurd (by rw [recognise, if_pos blank]) (noGap _)
  · by_cases comment : Text.startsWith (first :: (others ++ rest)) "//" = true
    · exact absurd (by rw [recognise, if_neg blank, if_pos comment]) (noGap _)
    · rw [recognise, if_neg blank, if_neg comment] at whole
      rw [recognise, recognise, if_neg blank, if_neg blank, if_neg comment,
        if_neg (mt slashes comment)]
      cases found : symbols.find? fun kind =>
          Text.startsWith (first :: (others ++ rest)) kind.name with
      | some kind =>
          rw [found] at whole
          have found' := (symbol fun other same => by
            obtain rfl := Option.some.inj (found.symm.trans same)
            exact whole).trans found
          rw [found']
      | none =>
          rw [found] at whole
          have found' := (symbol fun other same => by cases found.symm.trans same).trans found
          rw [found']
          dsimp only at whole ⊢
          by_cases digit : Text.isDigit first = true
          · rw [if_pos digit] at whole ⊢
            rw [if_pos digit, run (fun _ => isVisible_of_isDigit) whole]
          · rw [if_neg digit] at whole ⊢
            rw [if_neg digit]
            by_cases start : isWordStart first = true
            · rw [if_pos start] at whole ⊢
              rw [if_pos start, run (fun _ => isVisible_of_isWordByte) whole]
            · rw [if_neg start, if_neg start]

/-! ## Gaps -/

/-- What a gap is depends on what stands behind it only in its first byte. -/
theorem Gap.of_head?_eq
    {following following' gap : Text}
    (same : following'.head? = following.head?)
    (blank : Gap following gap) :
    Gap following' gap := by
  induction blank with
  | none => exact .none
  | blank blank _ inductionHypothesis => exact .blank blank inductionHypothesis
  | @comment line gap single ends _ inductionHypothesis =>
      refine .comment single ?_ inductionHypothesis
      rwa [List.head?_append, same, ← List.head?_append]

/-- Blanks and comments that end with their line. -/
inductive Closed : Text → Prop where
  | nil : Closed []
  | blank {byte : UInt8} {gap : Text}
      (blank : isBlank byte = true)
      (more : Closed gap) :
      Closed (byte :: gap)
  | comment {line gap : Text}
      (single : Text.lineFeed ∉ line)
      (more : Closed gap) :
      Closed (Text.ofString "//" ++ line ++ Text.lineFeed :: gap)

/-- A closed gap may stand in front of anything. -/
theorem Closed.gap
    {gap : Text}
    (closed : Closed gap)
    (following : Text) :
    Gap following gap := by
  induction closed with
  | nil => exact .none
  | blank blank _ inductionHypothesis => exact .blank blank inductionHypothesis
  | comment single _ inductionHypothesis =>
      exact .comment single (fun _ => by rintro ⟨⟩; rfl) (.blank rfl inductionHypothesis)

theorem Closed.of_blank
    {gap : Text}
    (blank : ∀ byte ∈ gap, isBlank byte = true) :
    Closed gap := by
  induction gap with
  | nil => exact .nil
  | cons byte gap inductionHypothesis =>
      rw [List.forall_mem_cons] at blank
      exact .blank blank.1 (inductionHypothesis blank.2)

/-- A gap that sets tokens apart: blanks and closed comments, the first byte a blank. -/
structure Spacing (gap : Text) : Prop where
  closed : Closed gap
  starts : ∃ byte ∈ gap.head?, isBlank byte = true

theorem Spacing.space : Spacing [Text.space] :=
  ⟨.blank rfl .nil, Text.space, rfl, rfl⟩

end Lexeme

namespace Lexer

open Lexeme

/-! ## One token before another rest -/

/-- Blanks and comments in front of a text are passed. -/
theorem next_gap
    {gap following : Text}
    (blank : Gap following gap)
    (pos : Position)
    (last : Kind) :
    next ⟨gap ++ following, pos, last⟩ = next ⟨following, pos.advance gap, last⟩ := by
  induction blank generalizing pos with
  | none => rfl
  | blank blank _ inductionHypothesis =>
      rw [List.cons_append, next_blank blank, inductionHypothesis, Position.advance_cons]
  | @comment line gap single ends _ inductionHypothesis =>
      have run : (Text.ofString "//" ++ (line ++ (gap ++ following))).takeWhile
          (· ≠ Text.lineFeed) = Text.ofString "//" ++ line := by
        rw [← List.append_assoc]
        refine takeWhile_append_of_delimits (ne_lineFeed_of_mem_comment single) fun byte heads => ?_
        rw [ends byte heads]
        rfl
      have found : recognise (Text.ofString "//" ++ (line ++ (gap ++ following))) =
          .gap (Text.ofString "//" ++ line) := by
        rw [recognise_slashes, run]
      have unsigned : signed? ⟨Text.ofString "//" ++ (line ++ (gap ++ following)), pos, last⟩ =
          none := rfl
      rw [List.append_assoc, List.append_assoc, next_eq, unsigned]
      simp only [found]
      rw [skip, ← List.append_assoc, List.drop_left, List.take_left, inductionHypothesis,
        ← Position.advance_append]

/-- A token stands at the start of a text behind a token of a kind: the bytes that it takes
up, and its kind with its lexeme. -/
inductive Stands (last : Kind) (text : Text) : (word : Text) → Word → Prop where
  | signed {word : Text}
      (found : signed? ⟨text, .start, last⟩ = some word) :
      Stands last text word (.integer, word)
  | lexeme {kind : Kind} {word : Text}
      (unsigned : signed? ⟨text, .start, last⟩ = none)
      (found : recognise text = .token kind word) :
      Stands last text word (kind, word)
  | illegal {byte : UInt8}
      (unsigned : signed? ⟨text, .start, last⟩ = none)
      (found : recognise text = .illegal byte) :
      Stands last text [byte] (.illegal, codePoint byte)

variable {last : Kind} {word rest rest' : Text} {spelled : Word}

/-- A signed number stays the same before an exchanged rest. -/
theorem signed?_of_exchanges
    (exchanges : Exchanges rest rest')
    (nonempty : word ≠ [])
    (whole : ∀ lexeme, signed? ⟨word ++ rest, .start, last⟩ = some lexeme → lexeme = word) :
    signed? ⟨word ++ rest', .start, last⟩ = signed? ⟨word ++ rest, .start, last⟩ := by
  obtain ⟨sign, digits, rfl⟩ := List.exists_cons_of_ne_nil nonempty
  simp only [List.cons_append, signed?] at whole ⊢
  by_cases signs : (sign = 45 && last.expectsOperand &&
      (digits ++ rest).head?.any Text.isDigit) = true
  · rw [if_pos signs] at whole ⊢
    have run : (digits ++ rest).takeWhile Text.isDigit = digits :=
      (List.cons.inj (whole _ rfl)).2
    cases digits with
    | nil =>
        obtain ⟨digit, heads, isDigit⟩ :=
          (Option.any_eq_true _ _).mp ((Bool.and_eq_true _ _).mp signs).2
        obtain ⟨others, equal⟩ := List.head?_eq_some_iff.mp heads
        rw [equal, List.takeWhile_cons_of_pos isDigit] at run
        cases run
    | cons digit digits =>
        refine (if_pos signs).trans ?_
        rw [run, exchanges.takeWhile_eq (fun _ => isVisible_of_isDigit) run]
  · rw [if_neg signs, if_neg]
    refine mt (fun signs' => ?_) signs
    rw [Bool.and_eq_true] at signs' ⊢
    exact ⟨signs'.1, exchanges.head?_any (fun _ => isVisible_of_isDigit) signs'.2⟩


namespace Stands

theorem ne_nil (stands : Stands last (word ++ rest) word spelled) : word ≠ [] := by
  cases stands with
  | signed found => exact (prefix_of_signed? found).2
  | lexeme _ found => exact List.length_pos_iff.mp (length_token found).1
  | illegal _ _ => exact List.cons_ne_nil _ _

theorem kind_ne (stands : Stands last (word ++ rest) word spelled) :
    spelled.1 ≠ .endOfInput := by
  cases stands with
  | signed _ | illegal _ _ => exact Kind.noConfusion
  | lexeme _ found => exact kind_ne_endOfInput_of_recognise found

/-- The token that stands at the start of a text is the next one. -/
theorem next (stands : Stands last (word ++ rest) word spelled) (pos : Position) :
    Lexer.next ⟨word ++ rest, pos, last⟩ =
      (⟨spelled.1, spelled.2, pos⟩, ⟨rest, pos.advance word, spelled.1⟩) := by
  have emits (kind : Kind) (lexeme : Text) :
      emit ⟨word ++ rest, pos, last⟩ kind lexeme word.length =
        (⟨kind, lexeme, pos⟩, ⟨rest, pos.advance word, kind⟩) := by
    simp [emit]
  rw [next_eq]
  cases stands with
  | signed found =>
      rw [show signed? ⟨word ++ rest, pos, last⟩ = some word from found]
      exact emits .integer word
  | lexeme unsigned found =>
      rw [show signed? ⟨word ++ rest, pos, last⟩ = none from unsigned]
      simp only [found]
      exact emits _ word
  | illegal unsigned found =>
      rw [show signed? ⟨_ ++ rest, pos, last⟩ = none from unsigned]
      simp only [found]
      exact emits .illegal _

/-- A token stands before an exchanged rest too. -/
theorem of_exchanges
    (stands : Stands last (word ++ rest) word spelled)
    (exchanges : Exchanges rest rest') :
    Stands last (word ++ rest') word spelled := by
  have nonempty := stands.ne_nil
  have unsigned' (unsigned : signed? ⟨word ++ rest, .start, last⟩ = none) :
      signed? ⟨word ++ rest', .start, last⟩ = none :=
    (signed?_of_exchanges exchanges nonempty fun _ found => nomatch unsigned.symm.trans found).trans
      unsigned
  cases stands with
  | signed found =>
      exact .signed ((signed?_of_exchanges exchanges nonempty fun _ found' =>
        Option.some.inj (found'.symm.trans found)).trans found)
  | lexeme unsigned found =>
      exact .lexeme (unsigned' unsigned)
        (recognise_of_exchanges exchanges nonempty found rfl fun _ => Found.noConfusion)
  | illegal unsigned found =>
      exact .illegal (unsigned' unsigned)
        (recognise_of_exchanges exchanges nonempty found rfl fun _ => Found.noConfusion)

end Stands

/-- The next token, if no gap is in front of it, stands at the start of the text. -/
theorem exists_stands_of_next
    {text : Text}
    {pos : Position}
    {token : Token}
    {behind : Lexer}
    (reads : next ⟨text, pos, last⟩ = (token, behind))
    (here : token.pos = pos)
    (notEnd : token.kind ≠ .endOfInput) :
    ∃ word, text = word ++ behind.rest ∧ Stands last text word token.word := by
  have emits {kind : Kind} {lexeme word : Text}
      (starts : word <+: text)
      (emitted : emit ⟨text, pos, last⟩ kind lexeme word.length = (token, behind)) :
      text = word ++ behind.rest ∧ token.word = (kind, lexeme) := by
    obtain ⟨rest, rfl⟩ := starts
    obtain ⟨rfl, rfl⟩ := Prod.mk.inj emitted
    exact ⟨by simp, rfl⟩
  rw [next_eq] at reads
  have starts := text_recognise_prefix text
  cases signed : signed? ⟨text, pos, last⟩ with
  | some lexeme =>
      rw [signed] at reads
      obtain ⟨split, equal⟩ := emits (prefix_of_signed? signed).1 reads
      exact ⟨lexeme, split, equal ▸ .signed signed⟩
  | none =>
      rw [signed] at reads
      dsimp only at reads
      cases found : recognise text with
      | nothing =>
          rw [found] at reads
          obtain ⟨rfl, -⟩ := Prod.mk.inj reads
          exact absurd rfl notEnd
      | gap lexeme =>
          -- Then the token stands behind the gap.
          rw [found] at reads
          have behind := offset_le_next (skip ⟨text, pos, last⟩ lexeme.length)
          dsimp only at reads
          rw [reads, here] at behind
          have bounds := length_gap found
          simp only [skip, Position.offset_advance, List.length_take] at behind
          omega
      | token kind lexeme =>
          rw [found] at reads starts
          obtain ⟨split, equal⟩ := emits starts reads
          exact ⟨lexeme, split, equal ▸ .lexeme signed found⟩
      | illegal byte =>
          rw [found] at reads starts
          obtain ⟨split, equal⟩ := emits starts reads
          exact ⟨[byte], split, equal ▸ .illegal signed found⟩

/-- Behind a gap the next token stands at the start of what is left. -/
theorem exists_stands
    (lexer : Lexer)
    (more : lexer.next.1.kind ≠ .endOfInput) :
    ∃ gap word rest, lexer.rest = gap ++ (word ++ rest) ∧ Gap (word ++ rest) gap ∧
      lexer.next.1.pos = lexer.pos.advance gap ∧
      lexer.next.2 = ⟨rest, lexer.pos.advance (gap ++ word), lexer.next.1.kind⟩ ∧
      Stands lexer.last (word ++ rest) word lexer.next.1.word := by
  obtain ⟨text, pos, last⟩ := lexer
  have takes := takes_next ⟨text, pos, last⟩
  generalize reads : next ⟨text, pos, last⟩ = result at takes more ⊢
  cases takes with
  | stop _ => exact absurd rfl more
  | @word gap word rest token left blank nonempty spells notEnd placed =>
      obtain rfl : text = gap ++ (word ++ rest) := left
      rw [next_gap blank] at reads
      obtain ⟨word', split, stands⟩ := exists_stands_of_next reads placed notEnd
      obtain rfl := List.append_cancel_right split
      exact ⟨gap, word, rest, rfl, blank, placed, rfl, stands⟩

end Lexer

/-! ## Texts of tokens and the gaps around them -/

/-- The number of bytes of its source that a token takes up: an illegal token stands for
one byte. -/
def Token.width (token : Token) : Nat :=
  if token.kind = .illegal then 1 else token.lexeme.length

/-- The bytes of a source that a token takes up. -/
def Token.textIn (source : Text) (token : Token) : Text :=
  (source.drop token.pos.offset).take token.width

/-- What is left of a source from a place on in front of tokens, between them and behind
them. -/
def Token.gapsIn (source : Text) (place : Nat) : List Token → List Text
  | [] => [source.drop place]
  | token :: tokens =>
    (source.drop place).take (token.pos.offset - place) ::
      gapsIn source (token.pos.offset + token.width) tokens

/-- A token without its position. -/
def Token.spelled (token : Token) : Kind × Text × Text :=
  (token.kind, token.lexeme, token.literal)

namespace Text

/-- The texts of the tokens of a source, without the end of the input. -/
def tokenTexts (source : Text) : List Text :=
  (Lexer.ofText source).body.map (Token.textIn source)

/-- The gaps of a source: in front of each token, and behind the last one. -/
def gaps (source : Text) : List Text :=
  Token.gapsIn source 0 (Lexer.ofText source).body

/-- Texts with gaps around them, first a gap and then a text. -/
def weave : (gaps texts : List Text) → Text
  | [], texts => texts.flatten
  | gap :: _, [] => gap
  | gap :: gaps, text :: texts => gap ++ (text ++ weave gaps texts)

@[simp] theorem weave_cons_cons (gap text : Text) (gaps texts : List Text) :
    weave (gap :: gaps) (text :: texts) = gap ++ (text ++ weave gaps texts) := rfl

@[simp] theorem weave_singleton (gap : Text) : weave [gap] [] = gap := rfl

end Text

namespace Lexer

open Lexeme Text

/-- Texts with gaps around them are read as words behind a token of a kind. -/
inductive Woven : (last : Kind) → (gaps texts : List Text) → List Word → Prop where
  | stop {last : Kind} {gap : Text}
      (blank : Gap [] gap) :
      Woven last [gap] [] []
  | token {last : Kind} {gap text : Text} {gaps texts : List Text} {word : Word}
      {words : List Word}
      (blank : Gap (text ++ weave gaps texts) gap)
      (stands : Stands last (text ++ weave gaps texts) text word)
      (more : Woven word.1 gaps texts words) :
      Woven last (gap :: gaps) (text :: texts) (word :: words)

variable {last : Kind} {gaps gaps' texts : List Text} {words : List Word}

/-- What is read as words has them as its tokens. -/
theorem Woven.body
    (woven : Woven last gaps texts words)
    (pos : Position) :
    (Lexer.body ⟨weave gaps texts, pos, last⟩).map Token.word = words := by
  induction woven generalizing pos with
  | @stop last gap blank =>
      rw [weave_singleton, body_eq, ← List.append_nil gap, next_gap blank, next_eq]
      rfl
  | token blank stands _ inductionHypothesis =>
      rw [weave_cons_cons, body_eq, next_gap blank, stands.next, if_neg stands.kind_ne,
        List.map_cons, inductionHypothesis]
      rfl

/-- The bytes that a token takes up. -/
theorem Stands.width
    {token : Token}
    {word rest : Text}
    (stands : Stands last (word ++ rest) word token.word) :
    token.width = word.length := by
  obtain ⟨kind, lexeme, pos⟩ := token
  rw [Token.width]
  cases stands with
  | signed _ => rfl
  | lexeme _ found => exact if_neg (kind_ne_illegal_of_recognise found)
  | illegal _ _ => rfl

/-- What is left of a source is its gaps and the texts of its tokens, and is read as these
tokens. -/
theorem woven_body
    {source : Text}
    (lexer : Lexer)
    (left : source.drop lexer.pos.offset = lexer.rest) :
    let gaps := Token.gapsIn source lexer.pos.offset lexer.body
    let texts := lexer.body.map (Token.textIn source)
    weave gaps texts = lexer.rest ∧ Woven lexer.last gaps texts (lexer.body.map Token.word) := by
  rw [body_eq]
  split
  · rename_i ends
    have takes := lexer.takes_next
    generalize lexer.next = result at takes ends
    cases takes with
    | word _ _ _ _ notEnd _ => exact absurd ends notEnd
    | stop blank =>
        rw [← left] at blank ⊢
        exact ⟨rfl, .stop blank⟩
  · rename_i more
    obtain ⟨gap, word, rest, split, blank, place, behind, stands⟩ := lexer.exists_stands more
    have shorter := lexer.length_rest_next_lt more
    have offset : lexer.next.1.pos.offset = lexer.pos.offset + gap.length := by
      rw [place, Position.offset_advance]
    have text : Token.textIn source lexer.next.1 = word := by
      rw [Token.textIn, stands.width, offset, ← List.drop_drop, left, split, List.drop_left,
        List.take_left]
    have front : (source.drop lexer.pos.offset).take (lexer.next.1.pos.offset - lexer.pos.offset) =
        gap := by
      rw [left, split, offset, Nat.add_sub_cancel_left, List.take_left]
    have next : lexer.next.1.pos.offset + lexer.next.1.width = lexer.next.2.pos.offset := by
      rw [behind, stands.width, offset, Position.offset_advance, List.length_append, Nat.add_assoc]
    have left' : source.drop lexer.next.2.pos.offset = lexer.next.2.rest := by
      rw [← next, offset, stands.width, ← List.drop_drop, ← List.drop_drop, left, split,
        List.drop_left, List.drop_left, behind]
    obtain ⟨equal, woven⟩ := woven_body lexer.next.2 left'
    rw [last_next] at woven
    have rest_eq : lexer.next.2.rest = rest := by rw [behind]
    rw [rest_eq] at equal
    simp only [List.map_cons, Token.gapsIn, front, text, next, weave_cons_cons, equal]
    refine ⟨split.symm, .token ?_ ?_ woven⟩
    · rwa [equal]
    · rwa [equal]
termination_by lexer.rest.length

/-- A source is its gaps and the texts of its tokens, and is read as these tokens. -/
theorem woven_source (source : Text) :
    weave source.gaps source.tokenTexts = source ∧
      Woven .endOfInput source.gaps source.tokenTexts ((ofText source).body.map Token.word) :=
  woven_body (ofText source) List.drop_zero

/-! ## Other gaps -/

/-- Other gaps behind the first token of a source: those between tokens stay, or become
gaps that set tokens apart, and the last one becomes one that goes up to the end. -/
inductive Respaced : (gaps gaps' : List Text) → Prop where
  | last {gap gap' : Text}
      (blank : Gap [] gap')
      (exchanges : Exchanges gap gap') :
      Respaced [gap] [gap']
  | between {gap gap' : Text} {gaps gaps' : List Text}
      (spacing : gap' = gap ∨ Spacing gap')
      (more : Respaced gaps gaps') :
      Respaced (gap :: gaps) (gap' :: gaps')

theorem head?_append_of_ne_nil
    {text : Text}
    (nonempty : text ≠ [])
    (rest rest' : Text) :
    (text ++ rest').head? = (text ++ rest).head? := by
  rw [List.head?_append_of_ne_nil _ nonempty, List.head?_append_of_ne_nil _ nonempty]

/-- A text with a gap in front that stays, or that sets tokens apart, is exchanged. -/
theorem exchanges_of_spacing
    {gap gap' text : Text}
    (spacing : gap' = gap ∨ Spacing gap')
    (nonempty : text ≠ [])
    (rest rest' : Text) :
    Exchanges (gap ++ (text ++ rest)) (gap' ++ (text ++ rest')) := by
  rcases spacing with rfl | spacing
  · left
    rw [List.head?_append, head?_append_of_ne_nil nonempty rest rest', ← List.head?_append]
  · right
    obtain ⟨byte, heads, blank⟩ := spacing.starts
    rw [List.head?_append, Option.mem_def.mp heads]
    rintro _ ⟨⟩
    exact blank

theorem Woven.exists_cons
    (woven : Woven last gaps texts words) :
    ∃ gap others, gaps = gap :: others := by
  cases woven with
  | stop _ | token _ _ _ => exact ⟨_, _, rfl⟩

/-- With other gaps around them texts are read as the same words. -/
theorem Woven.respaced
    {gap gap' : Text}
    (woven : Woven last (gap :: gaps) texts words)
    (front : gap' = gap ∨ Closed gap')
    (respaced : Respaced gaps gaps') :
    Woven last (gap' :: gaps') texts words := by
  have leads {text : Text} (nonempty : text ≠ []) {rest : Text} (rest' : Text)
      {gap gap' : Text} (blank : Gap (text ++ rest) gap) (front : gap' = gap ∨ Closed gap') :
      Gap (text ++ rest') gap' := by
    rcases front with rfl | closed
    · exact blank.of_head?_eq (head?_append_of_ne_nil nonempty rest rest')
    · exact closed.gap _
  induction respaced generalizing last gap gap' texts words with
  | last blank' exchanges =>
      cases woven with
      | token blank stands more =>
          cases more with
          | token _ _ more => cases more
          | stop _ =>
              exact .token (leads stands.ne_nil _ blank front) (stands.of_exchanges exchanges)
                (.stop blank')
  | between spacing respaced inductionHypothesis =>
      cases woven with
      | token blank stands more =>
          have more' := inductionHypothesis more (spacing.imp_right Spacing.closed)
          cases more with
          | stop _ => cases respaced
          | token _ next _ =>
              have exchanges := exchanges_of_spacing spacing next.ne_nil
              exact .token (leads stands.ne_nil _ blank front) (stands.of_exchanges (exchanges _ _))
                more'

/-- Every text but the last one is followed by a gap that sets tokens apart. -/
theorem Woven.exists_respaced
    {gap text : Text}
    (woven : Woven last (gap :: gaps) (text :: texts) words) :
    ∃ gaps', Respaced gaps gaps' ∧
      weave ([] :: gaps') (text :: texts) = Text.join " " (text :: texts) := by
  induction texts generalizing last gap text gaps words with
  | nil =>
      cases woven with
      | token _ _ more =>
          cases more with
          | stop _ => exact ⟨[[]], .last .none (.inr nofun), by simp [Text.join]⟩
  | cons next texts inductionHypothesis =>
      cases woven with
      | token _ _ more =>
          obtain ⟨gap', gaps', rfl⟩ := more.exists_cons
          obtain ⟨others, respaced, equal⟩ := inductionHypothesis more
          refine ⟨[Text.space] :: others, .between (.inr .space) respaced, ?_⟩
          have joined : Text.join " " (text :: next :: texts) =
              text ++ [Text.space] ++ Text.join " " (next :: texts) := rfl
          rw [joined, ← equal]
          simp

/-- With single spaces between them texts are read as the same words. -/
theorem Woven.exists_joined (woven : Woven last gaps texts words) :
    ∃ gaps', Woven last gaps' texts words ∧ weave gaps' texts = Text.join " " texts := by
  cases woven with
  | stop _ => exact ⟨[[]], .stop .none, rfl⟩
  | token blank stands more =>
      have woven := Woven.token blank stands more
      obtain ⟨gaps', respaced, joined⟩ := woven.exists_respaced
      exact ⟨[] :: gaps', woven.respaced (.inr .nil) respaced, joined⟩

/-- The tokens of a source without their positions are its words and the end of the input. -/
theorem map_spelled_ofText (source : Text) :
    (Token.ofText source).map Token.spelled =
      (ofText source).body.map Token.spelled ++ [(.endOfInput, [], [])] := by
  obtain ⟨words, equal, -, -⟩ := exists_standsAt_ofText source
  rw [body_of_ofText equal, equal, List.map_append]
  rfl

/-- The same words are spelled in the same way. -/
theorem map_spelled_of_words
    {tokens tokens' : List Token}
    (words : tokens'.map Token.word = tokens.map Token.word) :
    tokens'.map Token.spelled = tokens.map Token.spelled := by
  have spelled : Token.spelled =
      (fun word : Word => (word.1, word.2, Token.literal ⟨word.1, word.2, .nowhere⟩)) ∘
        Token.word := rfl
  rw [spelled, ← List.map_map, words, List.map_map]

end Lexer

/-- The tokens of a source do not depend on the gaps between them.  A source is made up of
the texts of its tokens and the gaps around them.  The texts alone, with a space between
neighbours, give the same kinds, lexemes and literals in a row.  So do the texts with any
other gaps of blanks and comments around them, if each gap between two tokens stays or
starts with a blank and closes its comments, the one in front of them stays or closes its
comments, and the one behind them starts in the same way or with a blank. -/
theorem tokens_stay_with_other_gaps (source : Text) :
    let gaps := source.gaps
    let texts := source.tokenTexts
    let spelled (source : Text) := (Token.ofText source).map Token.spelled
    Text.weave gaps texts = source ∧
    spelled (Text.join " " texts) = spelled source ∧
    ∀ gap others, gaps = gap :: others →
      ∀ gap' others', (gap' = gap ∨ Lexeme.Closed gap') → Lexer.Respaced others others' →
        spelled (Text.weave (gap' :: others') texts) = spelled source := by
  intro gaps texts spelled
  obtain ⟨whole, woven⟩ : Text.weave gaps texts = source ∧
      Lexer.Woven .endOfInput gaps texts ((Lexer.ofText source).body.map Token.word) :=
    Lexer.woven_source source
  have same {gaps' : List Text}
      (woven' : Lexer.Woven .endOfInput gaps' texts ((Lexer.ofText source).body.map Token.word)) :
      spelled (Text.weave gaps' texts) = spelled source := by
    have words := Lexer.map_spelled_of_words (woven'.body .start)
    simp only [spelled]
    rw [Lexer.map_spelled_ofText, Lexer.map_spelled_ofText source]
    exact congrArg (· ++ _) words
  refine ⟨whole, ?_, fun gap others split gap' others' front respaced => ?_⟩
  · obtain ⟨gaps', woven', joined⟩ := woven.exists_joined
    rw [← joined]
    exact same woven'
  · rw [split] at woven
    exact same (woven.respaced front respaced)

/-- A sign stays with its digits, and a comment may take the place of another one. -/
theorem tokens_stay_with_other_gaps_sign :
    let source : Text := "--5//c\n1"
    source.gaps = [[], [], "//c\n", []] ∧ source.tokenTexts = ["-", "-5", "1"] ∧
      (Token.ofText "- -5\t//d\n1 //e").map Token.spelled =
        (Token.ofText source).map Token.spelled := by
  intro source
  have gaps : source.gaps = [[], [], "//c\n", []] := by decide +kernel
  have texts : source.tokenTexts = ["-", "-5", "1"] := by decide +kernel
  have spacing : Lexeme.Spacing "\t//d\n" := by
    have comment : Lexeme.Closed (Text.ofString "//" ++ Text.ofString "d" ++ [Text.lineFeed]) :=
      .comment (by decide) .nil
    exact ⟨.blank rfl comment, 9, rfl, rfl⟩
  have trail : Lexeme.Gap [] " //e" := by
    have comment : Lexeme.Gap [] (Text.ofString "//" ++ Text.ofString "e" ++ []) :=
      .comment (by decide) nofun .none
    exact .blank rfl comment
  have respaced : Lexer.Respaced [[], "//c\n", []] [" ", "\t//d\n", " //e"] :=
    .between (.inr .space) (.between (.inr spacing) (.last trail (.inr (by decide +kernel))))
  have same := (tokens_stay_with_other_gaps source).2.2 _ _ gaps [] _ (.inl rfl) respaced
  rw [texts] at same
  exact ⟨gaps, texts, same⟩

end Siren
