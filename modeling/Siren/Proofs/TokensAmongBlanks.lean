import Mathlib.Data.List.Forall2
import Siren.Proofs.ErrorMarks
import Siren.Proofs.TrimmedText

/-!
# Tokens among white space

White space around a text changes its tokens in few ways.  In front of the text the lexer
passes blanks and takes other white space for illegal tokens.  Behind it no lexeme goes on
but blanks and a comment, so there are at most more tokens, and the first of them is
illegal.  From another place on, the tokens of a text are the same ones some lines further
down.
-/

namespace Siren

open Text (Unseen)

/-! ## Lexemes before white space -/

namespace Lexeme

variable {select : UInt8 → Bool} {trail : Text}

/-- A run of bytes stays the same with a text behind, or it reaches into this text. -/
theorem takeWhile_append_cases (select : UInt8 → Bool) (text trail : Text) :
    (text ++ trail).takeWhile select = text.takeWhile select ∨
      ∃ gone left, trail = gone ++ left ∧ text.takeWhile select = text ∧
        (text ++ trail).takeWhile select = text ++ gone := by
  rw [List.takeWhile_append]
  split
  · rename_i whole
    exact .inr ⟨trail.takeWhile select, trail.dropWhile select,
      List.takeWhile_append_dropWhile.symm, (List.takeWhile_prefix select).eq_of_length whole, rfl⟩
  · exact .inl rfl

/-- A run of visible bytes ends before white space. -/
theorem takeWhile_append_unseen
    (visible : ∀ byte, select byte = true → isVisible byte = true)
    (unseen : Unseen trail)
    (text : Text) :
    (text ++ trail).takeWhile select = text.takeWhile select := by
  rcases takeWhile_append_cases select text trail with same | ⟨gone, left, rfl, whole, longer⟩
  · exact same
  · cases gone with
    | nil => rw [longer, whole, List.append_nil]
    | cons byte gone =>
        have selected : select byte = true :=
          List.mem_takeWhile_imp (longer ▸ List.mem_append_right text List.mem_cons_self)
        cases (unseen byte List.mem_cons_self).symm.trans (visible byte selected)

theorem head?_append_unseen
    (visible : ∀ byte, select byte = true → isVisible byte = true)
    (unseen : Unseen trail)
    (text : Text) :
    (text ++ trail).head?.any select = text.head?.any select := by
  cases text with
  | cons byte text => rfl
  | nil =>
      cases trail with
      | nil => rfl
      | cons byte trail =>
          have other : ¬select byte = true := fun selected =>
            Bool.false_ne_true ((unseen byte List.mem_cons_self).symm.trans (visible byte selected))
          exact Bool.eq_false_iff.mpr other

theorem startsWith_append_unseen
    {spelling : Text}
    (visible : ∀ byte ∈ spelling, isVisible byte = true)
    (unseen : Unseen trail)
    (text : Text) :
    Text.startsWith (text ++ trail) spelling = text.startsWith spelling := by
  unfold Text.startsWith
  induction spelling generalizing text with
  | nil => simp
  | cons byte spelling inductionHypothesis =>
      rw [List.forall_mem_cons] at visible
      cases text with
      | cons first rest =>
          rw [List.cons_append, List.isPrefixOf, List.isPrefixOf, inductionHypothesis visible.2]
      | nil =>
          cases trail with
          | nil => rfl
          | cons first trail =>
              have other : byte ≠ first := by
                rintro rfl
                cases (unseen byte List.mem_cons_self).symm.trans visible.1
              simp [List.isPrefixOf, other]

/-- A gap that is a run of bytes stays the same with a text behind, or it reaches into this
text. -/
theorem gap_append_cases (select : UInt8 → Bool) (text trail : Text) :
    Found.gap ((text ++ trail).takeWhile select) = .gap (text.takeWhile select) ∨
      ∃ gone left, trail = gone ++ left ∧ Found.gap (text.takeWhile select) = .gap text ∧
        Found.gap ((text ++ trail).takeWhile select) = .gap (text ++ gone) := by
  simpa only [Found.gap.injEq] using takeWhile_append_cases select text trail

/-- What stands at the start of a text stays the same before white space, but for a gap that
takes up all of the text. -/
theorem recognise_append_unseen
    {text : Text}
    (nonempty : text ≠ [])
    (unseen : Unseen trail) :
    recognise (text ++ trail) = recognise text ∨
      ∃ gone left, trail = gone ++ left ∧ recognise text = .gap text ∧
        recognise (text ++ trail) = .gap (text ++ gone) := by
  cases text with
  | nil => exact absurd rfl nonempty
  | cons byte rest =>
      have comment := startsWith_append_unseen
        (show ∀ byte ∈ Text.ofString "//", isVisible byte = true by decide +kernel) unseen
        (byte :: rest)
      have digits := takeWhile_append_unseen (fun _ => isVisible_of_isDigit) unseen (byte :: rest)
      have word := takeWhile_append_unseen (fun _ => isVisible_of_isWordByte) unseen (byte :: rest)
      have symbol : (symbols.find? fun kind =>
          Text.startsWith (byte :: rest ++ trail) kind.name) =
            symbols.find? fun kind => Text.startsWith (byte :: rest) kind.name :=
        List.find?_congr fun kind member =>
          startsWith_append_unseen (isVisible_of_mem_symbols member) unseen (byte :: rest)
      rw [List.cons_append] at comment digits word symbol ⊢
      simp only [recognise, comment, symbol, digits, word]
      split
      · exact gap_append_cases isBlank (byte :: rest) trail
      · split
        · exact gap_append_cases (· ≠ Text.lineFeed) (byte :: rest) trail
        · exact .inl rfl

/-- What is no gap stays the same before white space. -/
theorem recognise_append_of_found
    {text : Text}
    {found : Found}
    (unseen : Unseen trail)
    (stands : recognise text = found)
    (something : found ≠ .nothing)
    (noGap : ∀ lexeme, found ≠ .gap lexeme) :
    recognise (text ++ trail) = found := by
  have nonempty : text ≠ [] := by
    rintro rfl
    exact something stands.symm
  rcases recognise_append_unseen nonempty unseen with same | ⟨_, _, _, gap, _⟩
  · exact same.trans stands
  · exact absurd (stands.symm.trans gap) (noGap text)

end Lexeme

namespace Lexer

open Lexeme

variable {trail : Text}

theorem ne_minus_of_isVisible
    {byte : UInt8}
    (invisible : isVisible byte = false) :
    byte ≠ 45 := by
  rintro rfl
  cases invisible

theorem signed?_of_unseen
    {lexer : Lexer}
    (unseen : Unseen lexer.rest) :
    lexer.signed? = none := by
  obtain ⟨rest, pos, last⟩ := lexer
  cases rest with
  | nil => rfl
  | cons byte rest =>
      exact signed?_of_head (ne_minus_of_isVisible (unseen byte List.mem_cons_self)) rest pos last

/-! ## White space behind a text -/

theorem signed?_followedBy
    (lexer : Lexer)
    (unseen : Unseen trail) :
    (lexer.followedBy trail).signed? = lexer.signed? := by
  obtain ⟨rest, pos, last⟩ := lexer
  cases rest with
  | cons sign rest =>
      have digits := takeWhile_append_unseen (fun _ => isVisible_of_isDigit) unseen rest
      have first := head?_append_unseen (fun _ => isVisible_of_isDigit) unseen rest
      simp only [followedBy, signed?, List.cons_append, digits, first]
  | nil => exact signed?_of_unseen unseen

/-- The next token stays the same before white space, and where there was none it is that of
the rest of the white space. -/
theorem next_followedBy
    (lexer : Lexer)
    (unseen : Unseen trail) :
    (lexer.next.1.kind = .endOfInput ∧ ∃ gone left, trail = gone ++ left ∧
      (lexer.followedBy trail).next =
        next ⟨left, lexer.pos.advance (lexer.rest ++ gone), lexer.last⟩) ∨
    (lexer.next.1.kind ≠ .endOfInput ∧
      (lexer.followedBy trail).next = (lexer.next.1, lexer.next.2.followedBy trail)) := by
  fun_induction next lexer with
  | case1 lexer lexeme signed =>
      refine .inr ⟨Kind.noConfusion, ?_⟩
      rw [next_eq, signed?_followedBy lexer unseen, signed]
      exact lexer.emit_followedBy .integer lexeme (length_signed?_le signed) trail
  | case2 lexer signed found =>
      refine .inl ⟨rfl, [], trail, rfl, ?_⟩
      rw [followedBy, eq_nil_of_recognise_eq_nothing found]
      rfl
  | case3 lexer signed lexeme found length inductionHypothesis =>
      have nonempty : lexer.rest ≠ [] := by
        intro none
        simp [none] at found
      rcases recognise_append_unseen nonempty unseen with same | ⟨gone, left, rfl, whole, longer⟩
      · have passed : (lexer.followedBy trail).next =
            ((lexer.skip lexeme.length).followedBy trail).next := by
          have found' : recognise (lexer.followedBy trail).rest = .gap lexeme := same.trans found
          rw [next_eq, signed?_followedBy lexer unseen, signed]
          simp only [found']
          rw [skip_followedBy lexer length.2]
        rw [passed]
        rcases inductionHypothesis with ⟨ended, gone, left, behind, equal⟩ | unchanged
        · refine .inl ⟨ended, gone, left, behind, ?_⟩
          rw [equal, skip, ← Position.advance_append, ← List.append_assoc, List.take_append_drop]
        · exact .inr unchanged
      · obtain rfl := Found.gap.inj (whole.symm.trans found)
        refine .inl ⟨?_, gone, left, rfl, ?_⟩
        · rw [skip, List.drop_length, next_eq]
          rfl
        · have found' : recognise (lexer.followedBy (gone ++ left)).rest =
              .gap (lexer.rest ++ gone) := longer
          rw [next_eq, signed?_followedBy lexer unseen, signed]
          simp only [found']
          rw [skip, followedBy, ← List.append_assoc, List.drop_left, List.take_left]
  | case4 lexer signed kind lexeme found =>
      have found' : recognise (lexer.followedBy trail).rest = .token kind lexeme :=
        recognise_append_of_found unseen found Found.noConfusion fun _ => Found.noConfusion
      refine .inr ⟨kind_ne_endOfInput_of_recognise found, ?_⟩
      rw [next_eq, signed?_followedBy lexer unseen, signed]
      simp only [found']
      exact lexer.emit_followedBy kind lexeme (length_token found).2 trail
  | case5 lexer signed byte found =>
      have found' : recognise (lexer.followedBy trail).rest = .illegal byte :=
        recognise_append_of_found unseen found Found.noConfusion fun _ => Found.noConfusion
      have bound : 1 ≤ lexer.rest.length := by
        have bound := length_recognise_le lexer.rest
        rwa [found] at bound
      refine .inr ⟨Kind.noConfusion, ?_⟩
      rw [next_eq, signed?_followedBy lexer unseen, signed]
      simp only [found']
      exact lexer.emit_followedBy .illegal (codePoint byte) bound trail

/-- The first token of white space, if any, is illegal. -/
theorem kind_next_of_unseen
    (lexer : Lexer)
    (unseen : Unseen lexer.rest) :
    lexer.next.1.kind = .endOfInput ∨ lexer.next.1.kind = .illegal := by
  have visible := lexer.visible_next
  have takes := lexer.takes_next
  generalize lexer.next = result at visible takes
  cases takes with
  | stop _ => exact .inl rfl
  | word left _ nonempty spells _ _ =>
      right
      by_contra legal
      rw [Token.Visible, if_neg legal] at visible
      rw [Token.Spells, if_neg legal] at spells
      subst spells
      obtain ⟨byte, inside⟩ := List.exists_mem_of_ne_nil _ nonempty
      have hidden := unseen byte <| by
        rw [left]
        exact List.mem_append_right _ (List.mem_append_left _ inside)
      cases hidden.symm.trans (visible byte inside)

/-- The next token does not stand before this place. -/
theorem offset_le_next (lexer : Lexer) : lexer.pos.offset ≤ lexer.next.1.pos.offset := by
  have takes := lexer.takes_next
  generalize lexer.next = result at takes
  cases takes with
  | stop _ =>
      rw [Token.endAt, Position.offset_advance]
      exact Nat.le_add_right _ _
  | word _ _ _ _ _ placed =>
      rw [placed, Position.offset_advance]
      exact Nat.le_add_right _ _

/-- Behind the tokens of a text, those of white space start with an illegal one. -/
theorem exists_body_followedBy
    (lexer : Lexer)
    (unseen : Unseen trail) :
    ∃ tail, (lexer.followedBy trail).body = lexer.body ++ tail ∧
      ∀ token ∈ tail.head?, token.kind = .illegal ∧
        lexer.pos.offset + lexer.rest.length ≤ token.pos.offset := by
  rcases lexer.next_followedBy unseen with ⟨ended, gone, left, rfl, same⟩ | ⟨more, same⟩
  · refine ⟨body ⟨left, lexer.pos.advance (lexer.rest ++ gone), lexer.last⟩, ?_, ?_⟩
    · rw [body_eq (lexer.followedBy _), same, ← body_eq, body_eq lexer, if_pos ended,
        List.nil_append]
    · intro token first
      rw [body_eq] at first
      split at first
      · cases first
      · rename_i more
        obtain rfl := Option.some.inj first
        have behind := offset_le_next ⟨left, lexer.pos.advance (lexer.rest ++ gone), lexer.last⟩
        rw [Position.offset_advance, List.length_append] at behind
        refine ⟨(kind_next_of_unseen _ ?_).resolve_left more, by omega⟩
        exact fun byte member => unseen byte (List.mem_append_right gone member)
  · have shorter := lexer.length_rest_next_lt more
    obtain ⟨tail, equal, illegal⟩ := lexer.next.2.exists_body_followedBy unseen
    refine ⟨tail, ?_, fun token first => ⟨(illegal token first).1, ?_⟩⟩
    · rw [body_eq (lexer.followedBy trail), same, if_neg more, equal, body_eq lexer, if_neg more,
        List.cons_append]
    · have place := congrArg Position.offset lexer.advance_next
      rw [Position.offset_advance, Position.offset_advance] at place
      rw [← place]
      exact (illegal token first).2
termination_by lexer.rest.length

/-! ## White space in front of a text -/

/-- Blanks in front of a text do not change its tokens. -/
theorem body_blanks
    {blanks : Text}
    (blank : ∀ byte ∈ blanks, isBlank byte = true)
    (text : Text)
    (pos : Position)
    (last : Kind) :
    body ⟨blanks ++ text, pos, last⟩ = body ⟨text, pos.advance blanks, last⟩ := by
  rw [body_eq, next_blanks blank, ← body_eq]

/-- White space in front of a text is blanks, or it holds an illegal token. -/
theorem isBlank_or_exists_illegal
    {lead : Text}
    (unseen : Unseen lead)
    (text : Text)
    (pos : Position)
    (last : Kind) :
    (∀ byte ∈ lead, isBlank byte = true) ∨
      ∃ token ∈ body ⟨lead ++ text, pos, last⟩, token.kind = .illegal ∧
        token.pos.offset < pos.offset + lead.length := by
  induction lead generalizing pos with
  | nil => exact .inl (List.forall_mem_nil _)
  | cons byte lead inductionHypothesis =>
      rw [Unseen, List.forall_mem_cons] at unseen
      by_cases blank : isBlank byte = true
      · rcases inductionHypothesis unseen.2 (pos.step byte) with blanks | ⟨token, member, illegal⟩
        · exact .inl (List.forall_mem_cons.mpr ⟨blank, blanks⟩)
        · refine .inr ⟨token, ?_, illegal.1, ?_⟩
          · rw [List.cons_append, body_eq, next_blank blank, ← body_eq]
            exact member
          · rw [Position.offset_step] at illegal
            rw [List.length_cons]
            omega
      · have found := recognise_of_not_isVisible (Bool.eq_false_iff.mpr blank) unseen.1
          (lead ++ text)
        have first : next ⟨byte :: (lead ++ text), pos, last⟩ =
            (⟨.illegal, codePoint byte, pos⟩, ⟨lead ++ text, pos.step byte, .illegal⟩) := by
          rw [next_eq, signed?_of_head (ne_minus_of_isVisible unseen.1)]
          simp only [found]
          rfl
        refine .inr ⟨⟨.illegal, codePoint byte, pos⟩, ?_, rfl, Nat.lt_add_of_pos_right ?_⟩
        · rw [List.cons_append, body_eq, first, if_neg Kind.noConfusion]
          exact List.mem_cons_self
        · exact Nat.succ_pos lead.length

end Lexer

/-! ## Tokens from another place on -/

/-- The same token, some lines further down. -/
structure Token.Below (down : Int) (token token' : Token) : Prop where
  kind : token'.kind = token.kind
  lexeme : token'.lexeme = token.lexeme
  line : token'.pos.line = token.pos.line + down

namespace Lexer

/-- The same is left of a text, some lines further down. -/
structure Below (down : Int) (lexer lexer' : Lexer) : Prop where
  rest : lexer'.rest = lexer.rest
  last : lexer'.last = lexer.last
  line : lexer'.pos.line = lexer.pos.line + down

namespace Below

variable {down : Int} {lexer lexer' : Lexer}

theorem advance (below : Below down lexer lexer') (text : Text) :
    (lexer'.pos.advance text).line = (lexer.pos.advance text).line + down := by
  rw [Position.line_advance_eq_add, Position.line_advance_eq_add, below.line]
  omega

theorem skip (below : Below down lexer lexer') (count : Nat) :
    Below down (lexer.skip count) (lexer'.skip count) where
  rest := congrArg (List.drop count) below.rest
  last := below.last
  line := by
    rw [Lexer.skip, Lexer.skip, below.rest]
    exact below.advance _

theorem emit (below : Below down lexer lexer') (kind : Kind) (lexeme : Text) (count : Nat) :
    Token.Below down (lexer.emit kind lexeme count).1 (lexer'.emit kind lexeme count).1 ∧
      Below down (lexer.emit kind lexeme count).2 (lexer'.emit kind lexeme count).2 where
  left := ⟨rfl, rfl, below.line⟩
  right := by
    refine ⟨congrArg (List.drop count) below.rest, rfl, ?_⟩
    rw [Lexer.emit, Lexer.emit, below.rest]
    exact below.advance _

theorem signed? (below : Below down lexer lexer') : lexer'.signed? = lexer.signed? := by
  rw [Lexer.signed?, Lexer.signed?, below.rest, below.last]

/-- The next token is the same one further down, and so is what is left behind it. -/
theorem next (below : Below down lexer lexer') :
    Token.Below down lexer.next.1 lexer'.next.1 ∧ Below down lexer.next.2 lexer'.next.2 := by
  fun_induction Lexer.next lexer generalizing lexer' with
  | case1 lexer lexeme signed =>
      rw [next_eq lexer', below.signed?, signed]
      exact below.emit _ _ _
  | case2 lexer signed found =>
      rw [next_eq lexer', below.signed?, signed, below.rest]
      simp only [found]
      exact below.emit _ _ _
  | case3 lexer signed lexeme found length inductionHypothesis =>
      rw [next_eq lexer', below.signed?, signed, below.rest]
      simp only [found]
      exact inductionHypothesis (below.skip _)
  | case4 lexer signed kind lexeme found =>
      rw [next_eq lexer', below.signed?, signed, below.rest]
      simp only [found]
      exact below.emit _ _ _
  | case5 lexer signed byte found =>
      rw [next_eq lexer', below.signed?, signed, below.rest]
      simp only [found]
      exact below.emit _ _ _

/-- All tokens are the same ones further down. -/
theorem body {lexer lexer' : Lexer} (below : Below down lexer lexer') :
    List.Forall₂ (Token.Below down) lexer.body lexer'.body := by
  obtain ⟨token, behind⟩ := below.next
  rw [body_eq lexer, body_eq lexer', token.kind]
  split
  · exact .nil
  · rename_i more
    have shorter := lexer.length_rest_next_lt more
    exact .cons token behind.body
termination_by lexer.rest.length

end Below
end Lexer
end Siren
