import Mathlib.Data.List.Find
import Mathlib.Data.List.TakeWhile
import Siren.Token.Lexer

/-!
# Tokens of a text with more lines

No lexeme but a run of blanks holds a line feed.  So a line feed ends the
lexeme before it, and the tokens of a text are those of its lines in a row: a
text with more lines has the tokens of the text and then those of the lines.
-/

namespace Siren

namespace Lexeme

/-- What stops before a line feed reads none of the lines after it. -/
theorem takeWhile_append_lineFeed
    (select : UInt8 → Bool)
    (stops : select Text.lineFeed = false)
    (text more : Text) :
    (text ++ Text.lineFeed :: more).takeWhile select = text.takeWhile select := by
  rw [List.takeWhile_append]
  split
  · rename_i whole
    have equal : text.takeWhile select = text :=
      (List.takeWhile_prefix select).eq_of_length whole
    rw [List.takeWhile_cons, stops, equal]
    simp
  · rfl

/-- A spelling without a line feed starts a text, or not, whatever lines follow. -/
theorem startsWith_append_lineFeed
    (spelling : Text)
    (single : Text.lineFeed ∉ spelling)
    (text more : Text) :
    Text.startsWith (text ++ Text.lineFeed :: more) spelling = text.startsWith spelling := by
  unfold Text.startsWith
  induction spelling generalizing text with
  | nil => simp
  | cons byte spelling inductionHypothesis =>
      rw [List.mem_cons, not_or] at single
      cases text with
      | nil => simp [List.isPrefixOf, Ne.symm single.1]
      | cons first rest =>
          rw [List.cons_append, List.isPrefixOf, List.isPrefixOf, inductionHypothesis single.2]

theorem lineFeed_not_mem_name {kind : Kind} (member : kind ∈ symbols) :
    Text.lineFeed ∉ kind.name := by
  revert kind
  decide

/-- The lexeme of a text that is not all blanks stays the same with more lines. -/
theorem recognise_append_lineFeed
    {text : Text}
    (nonblank : text.all isBlank = false)
    (more : Text) :
    recognise (text ++ Text.lineFeed :: more) = recognise text := by
  cases text with
  | nil => simp at nonblank
  | cons byte rest =>
      have blanks : List.takeWhile isBlank (byte :: rest ++ Text.lineFeed :: more) =
          List.takeWhile isBlank (byte :: rest) := by
        rw [List.takeWhile_append, if_neg]
        intro whole
        have equal : List.takeWhile isBlank (byte :: rest) = byte :: rest :=
          (List.takeWhile_prefix isBlank).eq_of_length whole
        have all := List.all_takeWhile (p := isBlank) (l := byte :: rest)
        rw [equal, nonblank] at all
        cases all
      have comment := startsWith_append_lineFeed "//" (by decide) (byte :: rest) more
      have line := takeWhile_append_lineFeed (· ≠ Text.lineFeed) (by decide) (byte :: rest) more
      have digits := takeWhile_append_lineFeed Text.isDigit (by decide) (byte :: rest) more
      have word := takeWhile_append_lineFeed isWordByte (by decide) (byte :: rest) more
      have symbol : (symbols.find? fun kind =>
          Text.startsWith (byte :: rest ++ Text.lineFeed :: more) kind.name) =
            symbols.find? fun kind => Text.startsWith (byte :: rest) kind.name :=
        List.find?_congr fun kind member =>
          startsWith_append_lineFeed kind.name (lineFeed_not_mem_name member) (byte :: rest) more
      rw [List.cons_append] at blanks comment line digits word symbol ⊢
      simp only [recognise, blanks, comment, line, digits, word, symbol]

/-- Blanks are one gap. -/
theorem recognise_blanks
    {text : Text}
    (nonempty : text ≠ [])
    (blank : text.all isBlank = true) :
    recognise text = .gap text := by
  cases text with
  | nil => exact absurd rfl nonempty
  | cons byte rest =>
      have whole : (byte :: rest).takeWhile isBlank = byte :: rest :=
        List.takeWhile_eq_self_iff.mpr (List.all_eq_true.mp blank)
      rw [List.all_cons, Bool.and_eq_true] at blank
      rw [recognise, if_pos blank.1, whole]

theorem nonblank_of_recognise
    {text : Text}
    (found : ∀ lexeme, recognise text ≠ .gap lexeme ∧ recognise text ≠ .nothing) :
    text.all isBlank = false := by
  rw [Bool.eq_false_iff]
  intro blank
  have nonempty : text ≠ [] := by
    rintro rfl
    exact (found []).2 rfl
  exact (found text).1 (recognise_blanks nonempty blank)

theorem eq_nil_of_recognise_eq_nothing
    {text : Text}
    (found : recognise text = .nothing) :
    text = [] := by
  cases text with
  | nil => rfl
  | cons byte rest =>
      have positive := length_recognise_pos byte rest
      rw [found] at positive
      exact absurd positive (Nat.lt_irrefl 0)

end Lexeme

namespace Lexer

open Lexeme

/-- The lexer with a text behind what is left. -/
def followedBy (lexer : Lexer) (more : Text) : Lexer :=
  ⟨lexer.rest ++ more, lexer.pos, lexer.last⟩

/-- The lexer with more lines behind what is left. -/
def addLines (lexer : Lexer) (more : Text) : Lexer :=
  ⟨lexer.rest ++ Text.lineFeed :: more, lexer.pos, lexer.last⟩

/-- The tokens from this place on, without the end of the input. -/
def body (lexer : Lexer) : List Token :=
  lexer.tokenize.1.takeWhile (·.kind ≠ .endOfInput)

/-- What holds of the next token everywhere holds of all tokens. -/
theorem forall_mem_tokenize
    {holds : Token → Prop}
    (each : ∀ lexer : Lexer, holds lexer.next.1)
    (lexer : Lexer) :
    ∀ token ∈ lexer.tokenize.1, holds token := by
  rw [tokenize]
  split
  · exact List.forall_mem_singleton.mpr (each lexer)
  · rename_i more
    have shorter := lexer.length_rest_next_lt more
    exact List.forall_mem_cons.mpr ⟨each lexer, forall_mem_tokenize each lexer.next.2⟩
termination_by lexer.rest.length

theorem body_subset_tokenize (lexer : Lexer) : lexer.body ⊆ lexer.tokenize.1 :=
  (List.takeWhile_sublist _).subset

theorem body_eq (lexer : Lexer) :
    lexer.body =
      if lexer.next.1.kind = .endOfInput then [] else lexer.next.1 :: lexer.next.2.body := by
  rw [body, tokenize]
  split
  · rename_i ends
    simp [ends]
  · rename_i more
    simp [more, body]

theorem signed?_addLines (lexer : Lexer) (more : Text) :
    (lexer.addLines more).signed? = lexer.signed? := by
  obtain ⟨rest, pos, last⟩ := lexer
  cases rest with
  | nil => simp [addLines, signed?, Text.lineFeed]
  | cons sign rest =>
      have digits := takeWhile_append_lineFeed Text.isDigit (by decide) rest more
      have head : (rest ++ Text.lineFeed :: more).head?.any Text.isDigit =
          rest.head?.any Text.isDigit := by
        cases rest with
        | nil => rfl
        | cons byte rest => rfl
      simp only [addLines, signed?, List.cons_append, digits, head]

theorem emit_followedBy
    (lexer : Lexer)
    (kind : Kind)
    (lexeme : Text)
    {count : Nat}
    (bound : count ≤ lexer.rest.length)
    (more : Text) :
    (lexer.followedBy more).emit kind lexeme count =
      ((lexer.emit kind lexeme count).1, (lexer.emit kind lexeme count).2.followedBy more) := by
  simp [followedBy, emit, List.drop_append_of_le_length bound, List.take_append_of_le_length bound]

theorem skip_followedBy
    (lexer : Lexer)
    {count : Nat}
    (bound : count ≤ lexer.rest.length)
    (more : Text) :
    (lexer.followedBy more).skip count = (lexer.skip count).followedBy more := by
  simp [followedBy, skip, List.drop_append_of_le_length bound, List.take_append_of_le_length bound]

theorem emit_addLines
    (lexer : Lexer)
    (kind : Kind)
    (lexeme : Text)
    {count : Nat}
    (bound : count ≤ lexer.rest.length)
    (more : Text) :
    (lexer.addLines more).emit kind lexeme count =
      ((lexer.emit kind lexeme count).1, (lexer.emit kind lexeme count).2.addLines more) :=
  lexer.emit_followedBy kind lexeme bound (Text.lineFeed :: more)

theorem skip_addLines
    (lexer : Lexer)
    {count : Nat}
    (bound : count ≤ lexer.rest.length)
    (more : Text) :
    (lexer.addLines more).skip count = (lexer.skip count).addLines more :=
  lexer.skip_followedBy bound (Text.lineFeed :: more)

theorem length_signed?_le
    {lexer : Lexer}
    {lexeme : Text}
    (found : lexer.signed? = some lexeme) :
    lexeme.length ≤ lexer.rest.length := by
  unfold signed? at found
  split at found
  · rename_i sign rest equal
    split at found
    · obtain rfl := Option.some.inj found
      rw [equal, List.length_cons, List.length_cons]
      exact Nat.succ_le_succ (List.takeWhile_sublist _).length_le
    · cases found
  · cases found

/-- The next token by what stands at this place. -/
theorem next_eq (lexer : Lexer) :
    lexer.next =
      match lexer.signed? with
      | some lexeme => lexer.emit .integer lexeme lexeme.length
      | none =>
        match recognise lexer.rest with
        | .nothing => lexer.emit .endOfInput [] 0
        | .gap lexeme => next (lexer.skip lexeme.length)
        | .token kind lexeme => lexer.emit kind lexeme lexeme.length
        | .illegal byte => lexer.emit .illegal (codePoint byte) 1 := by
  rw [next]
  cases lexer.signed? with
  | some lexeme => rfl
  | none =>
      dsimp only
      split <;> rename_i found <;> simp only [found]

/-- No signed number starts with another byte than a minus sign. -/
theorem signed?_of_head
    {first : UInt8}
    (other : first ≠ 45)
    (rest : Text)
    (pos : Position)
    (last : Kind) :
    signed? ⟨first :: rest, pos, last⟩ = none := by
  simp [signed?, other]

theorem ne_minus_of_isBlank
    {byte : UInt8}
    (blank : isBlank byte = true) :
    byte ≠ 45 := by
  rintro rfl
  cases blank

/-- A blank in front of a text is passed. -/
theorem next_blank
    {byte : UInt8}
    (blank : isBlank byte = true)
    (text : Text)
    (pos : Position)
    (last : Kind) :
    next ⟨byte :: text, pos, last⟩ = next ⟨text, pos.step byte, last⟩ := by
  have found : recognise (byte :: text) = .gap (byte :: text.takeWhile isBlank) := by
    rw [recognise, if_pos blank, List.takeWhile_cons_of_pos blank]
  rw [next_eq, signed?_of_head (ne_minus_of_isBlank blank)]
  simp only [found]
  cases text with
  | nil => rfl
  | cons first rest =>
      by_cases more : isBlank first = true
      · -- The blanks behind it are a gap of their own, which ends at the same place.
        have found' : recognise (first :: rest) = .gap ((first :: rest).takeWhile isBlank) := by
          rw [recognise, if_pos more]
        rw [next_eq ⟨first :: rest, _, _⟩, signed?_of_head (ne_minus_of_isBlank more)]
        simp only [found']
        rfl
      · rw [List.takeWhile_cons_of_neg more]
        rfl

/-- Blanks in front of a text are passed. -/
theorem next_blanks
    {blanks : Text}
    (blank : ∀ byte ∈ blanks, isBlank byte = true)
    (text : Text)
    (pos : Position)
    (last : Kind) :
    next ⟨blanks ++ text, pos, last⟩ = next ⟨text, pos.advance blanks, last⟩ := by
  induction blanks generalizing pos with
  | nil => rfl
  | cons byte blanks inductionHypothesis =>
      rw [List.forall_mem_cons] at blank
      rw [List.cons_append, next_blank blank.1, inductionHypothesis blank.2, Position.advance_cons]

/-- The next token stays the same with more lines, and where there was none it
is that of the lines. -/
theorem next_addLines (lexer : Lexer) (more : Text) :
    (lexer.addLines more).next =
      if lexer.next.1.kind = .endOfInput then
        next ⟨Text.lineFeed :: more, lexer.next.2.pos, lexer.last⟩
      else
        (lexer.next.1, lexer.next.2.addLines more) := by
  fun_induction next lexer with
  | case1 lexer lexeme signed =>
      rw [next_eq, signed?_addLines, signed]
      simp only [emit_addLines lexer _ _ (length_signed?_le signed)]
      rfl
  | case2 lexer signed found =>
      have none := eq_nil_of_recognise_eq_nothing found
      simp only [addLines, none, List.nil_append, emit, List.take_nil, Position.advance_nil,
        if_true]
  | case3 lexer signed lexeme found length inductionHypothesis =>
      by_cases blank : lexer.rest.all isBlank = true
      · have nonempty : lexer.rest ≠ [] := by
          intro none
          simp [none] at found
        obtain rfl : lexer.rest = lexeme := by
          have gap := (recognise_blanks nonempty blank).symm.trans found
          exact Found.gap.inj gap
        have ended : (lexer.skip lexer.rest.length).next = (⟨.endOfInput, [],
            lexer.pos.advance lexer.rest⟩, ⟨[], lexer.pos.advance lexer.rest, .endOfInput⟩) := by
          rw [next_eq]
          simp [skip, signed?, emit]
        have passed : (lexer.addLines more).next =
            next ⟨Text.lineFeed :: more, lexer.pos.advance lexer.rest, lexer.last⟩ :=
          next_blanks (List.all_eq_true.mp blank) _ _ _
        rw [passed, ended]
        rfl
      · have found' : recognise (lexer.addLines more).rest = .gap lexeme :=
          (recognise_append_lineFeed (Bool.eq_false_iff.mpr blank) more).trans found
        rw [next_eq, signed?_addLines, signed]
        simp only [found']
        rw [skip_addLines lexer length.2]
        exact inductionHypothesis
  | case4 lexer signed kind lexeme found =>
      have found' : recognise (lexer.addLines more).rest = .token kind lexeme :=
        (recognise_append_lineFeed (nonblank_of_recognise (by simp [found])) more).trans found
      rw [next_eq, signed?_addLines, signed]
      simp only [found', emit_addLines lexer kind lexeme (length_token found).2]
      exact (if_neg (kind_ne_endOfInput_of_recognise found)).symm
  | case5 lexer signed byte found =>
      have found' : recognise (lexer.addLines more).rest = .illegal byte :=
        (recognise_append_lineFeed (nonblank_of_recognise (by simp [found])) more).trans found
      have bound : 1 ≤ lexer.rest.length := by
        have bound := length_recognise_le lexer.rest
        rwa [found] at bound
      rw [next_eq, signed?_addLines, signed]
      simp only [found', emit_addLines lexer .illegal (codePoint byte) bound]
      rfl

/-- Behind a token, what is left of the text ends where it did. -/
theorem advance_next (lexer : Lexer) :
    lexer.next.2.pos.advance lexer.next.2.rest = lexer.pos.advance lexer.rest := by
  have emits (lexer : Lexer) (kind : Kind) (lexeme : Text) (count : Nat) :
      (lexer.emit kind lexeme count).2.pos.advance (lexer.emit kind lexeme count).2.rest =
        lexer.pos.advance lexer.rest := by
    simp only [emit]
    rw [← Position.advance_append, List.take_append_drop]
  fun_induction next lexer with
  | case1 lexer lexeme signed => exact emits lexer _ _ _
  | case2 lexer signed found => exact emits lexer _ _ _
  | case3 lexer signed lexeme found length inductionHypothesis =>
      rw [inductionHypothesis, skip, ← Position.advance_append, List.take_append_drop]
  | case4 lexer signed kind lexeme found => exact emits lexer _ _ _
  | case5 lexer signed byte found => exact emits lexer _ _ _

/-- A token is the last one of the lexer behind it. -/
theorem last_next (lexer : Lexer) : lexer.next.2.last = lexer.next.1.kind := by
  fun_induction next lexer with
  | case3 lexer signed lexeme found length inductionHypothesis => exact inductionHypothesis
  | case1 | case2 | case4 | case5 => rfl

/-- Nothing is left behind the end of the input. -/
theorem rest_next_of_ended
    {lexer : Lexer}
    (ended : lexer.next.1.kind = .endOfInput) :
    lexer.next.2.rest = [] := by
  fun_induction next lexer with
  | case1 lexer lexeme signed => cases ended
  | case2 lexer signed found => exact eq_nil_of_recognise_eq_nothing found
  | case3 lexer signed lexeme found length inductionHypothesis => exact inductionHypothesis ended
  | case4 lexer signed kind lexeme found =>
      exact absurd ended (kind_ne_endOfInput_of_recognise found)
  | case5 lexer signed byte found => cases ended

/-- The kind of the last token, or of the one before this place without any. -/
def lastOfBody (lexer : Lexer) : Kind :=
  (lexer.body.getLast?.map (·.kind)).getD lexer.last

/-- The tokens of a text with more lines are those of the text and then those of
the lines. -/
theorem body_addLines (lexer : Lexer) (more : Text) :
    (lexer.addLines more).body = lexer.body ++
      body ⟨Text.lineFeed :: more, lexer.pos.advance lexer.rest, lexer.lastOfBody⟩ := by
  by_cases ends : lexer.next.1.kind = .endOfInput
  · have place := lexer.advance_next
    rw [rest_next_of_ended ends, Position.advance_nil] at place
    rw [body_eq (lexer.addLines more), next_addLines, if_pos ends, ← body_eq, lastOfBody,
      body_eq lexer, if_pos ends, List.nil_append, place]
    rfl
  · have shorter := lexer.length_rest_next_lt ends
    have last : lexer.lastOfBody = lexer.next.2.lastOfBody := by
      rw [lastOfBody, lastOfBody, body_eq lexer, if_neg ends, last_next, List.getLast?_cons]
      cases lexer.next.2.body.getLast? <;> rfl
    rw [body_eq (lexer.addLines more), next_addLines, if_neg ends, if_neg ends,
      body_addLines lexer.next.2 more, body_eq lexer, if_neg ends, List.cons_append, advance_next,
      last]
termination_by lexer.rest.length

end Lexer

end Siren
