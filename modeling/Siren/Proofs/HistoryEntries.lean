import Siren.Proofs.GapsBetweenTokens
import Siren.Proofs.ReadingChunks
import Siren.Proofs.Seams
import Siren.Proofs.TrimmedChunks

/-!
# History entries

The entry of a chunk in the history is the chunk on one line.  A line feed does more than
separate tokens in two places: it ends a comment, and behind a closing brace it ends a
statement which the next token would go on with.  Without the first the entry loses all
tokens behind the comment, and without the second two statements become one.  Where
neither happens the tokens of the entry are those of the chunk, the entry stands for the
same program, and evaluating it prints what the chunk prints.
-/

namespace Siren

/-! ## Texts on one line -/

namespace Text

theorem onOneLine_append (first second : Text) :
    (first ++ second).onOneLine = first.onOneLine ++ second.onOneLine :=
  List.map_append

theorem lineFeed_not_mem_onOneLine (text : Text) : lineFeed ∉ text.onOneLine := by
  intro member
  obtain ⟨byte, -, equal⟩ := List.mem_map.mp member
  split at equal
  · cases equal
  · rename_i other
    exact other equal

/-- A text without line feeds stays as it is. -/
theorem onOneLine_of_not_mem
    {text : Text}
    (oneLine : lineFeed ∉ text) :
    text.onOneLine = text := by
  refine (List.map_congr_left fun byte member => if_neg ?_).trans (List.map_id text)
  rintro rfl
  exact oneLine member

/-- No comment stands in front of a token. -/
def Uncommented (text : Text) : Prop :=
  ∀ gap ∈ text.gaps.dropLast, ∀ byte ∈ gap, Lexeme.isBlank byte = true

instance (text : Text) : Decidable text.Uncommented :=
  inferInstanceAs (Decidable (∀ gap ∈ text.gaps.dropLast, ∀ byte ∈ gap,
    Lexeme.isBlank byte = true))

end Text

namespace Lexeme

theorem isBlank_onOneLine
    {gap : Text}
    (blank : ∀ byte ∈ gap, isBlank byte = true) :
    ∀ byte ∈ gap.onOneLine, isBlank byte = true := by
  intro _ member
  obtain ⟨byte, inside, rfl⟩ := List.mem_map.mp member
  split
  · rfl
  · exact blank byte inside

/-- On one line a comment takes up everything behind it. -/
theorem gap_comment_onOneLine (line : Text) :
    Gap [] (Text.ofString "//" ++ line).onOneLine := by
  have comment : Gap [] (Text.ofString "//" ++ line.onOneLine ++ []) :=
    .comment (Text.lineFeed_not_mem_onOneLine line) nofun .none
  rw [List.append_nil] at comment
  rw [Text.onOneLine_append]
  exact comment

theorem Gap.onOneLine
    {gap : Text}
    (blank : Gap [] gap) :
    Gap [] gap.onOneLine := by
  induction blank with
  | none => exact .none
  | @blank byte gap blank _ inductionHypothesis =>
      exact .blank (isBlank_onOneLine (List.forall_mem_singleton.mpr blank) _ List.mem_cons_self)
        inductionHypothesis
  | @comment line gap _ _ _ _ =>
      rw [List.append_assoc]
      exact gap_comment_onOneLine (line ++ gap)

/-- On one line nothing is left behind a gap with a comment. -/
theorem Gap.onOneLine_of_commented
    {following gap : Text}
    (blank : Gap following gap)
    (commented : ¬∀ byte ∈ gap, isBlank byte = true) :
    Gap [] (gap ++ following).onOneLine := by
  induction blank with
  | none => exact absurd (List.forall_mem_nil _) commented
  | @blank byte gap blank _ inductionHypothesis =>
      rw [List.forall_mem_cons] at commented
      exact .blank (isBlank_onOneLine (List.forall_mem_singleton.mpr blank) _ List.mem_cons_self)
        (inductionHypothesis fun others => commented ⟨blank, others⟩)
  | @comment line gap _ _ _ _ =>
      rw [List.append_assoc, List.append_assoc]
      exact gap_comment_onOneLine (line ++ (gap ++ following))

/-- On one line a text starts as before, or with a space. -/
theorem exchanges_onOneLine (text : Text) : Exchanges text text.onOneLine := by
  cases text with
  | nil => exact .inl rfl
  | cons byte text =>
      by_cases feed : byte = Text.lineFeed
      · right
        rw [Text.onOneLine, List.map_cons, if_pos feed]
        rintro _ ⟨⟩
        rfl
      · left
        rw [Text.onOneLine, List.map_cons, if_neg feed]
        rfl

end Lexeme

namespace Lexer

open Lexeme Text

variable {last : Kind} {gaps texts : List Text} {words : List Word}

/-- No token goes over the end of a line. -/
theorem Stands.lineFeed_not_mem
    {word rest : Text}
    {spelled : Word}
    (stands : Stands last (word ++ rest) word spelled) :
    Text.lineFeed ∉ word := by
  have visible {byte : UInt8} (seen : isVisible byte = true) : byte ≠ Text.lineFeed := by
    rintro rfl
    cases seen
  cases stands with
  | signed found => exact fun member => visible (isVisible_of_signed? found _ member) rfl
  | lexeme _ found => exact fun member => visible (isVisible_of_recognise found _ member) rfl
  | illegal _ found =>
      intro member
      obtain rfl := List.mem_singleton.mp member
      cases isBlank_of_recognise_eq_illegal found

/-- On one line the texts of tokens stay as they are. -/
theorem Woven.onOneLine_weave (woven : Woven last gaps texts words) :
    (weave gaps texts).onOneLine = weave (gaps.map onOneLine) texts := by
  induction woven with
  | stop _ => rfl
  | token _ stands _ inductionHypothesis =>
      rw [weave_cons_cons, onOneLine_append, onOneLine_append,
        onOneLine_of_not_mem stands.lineFeed_not_mem, inductionHypothesis]
      rfl

/-- Without comments in front of tokens the same words are read on one line. -/
theorem Woven.onOneLine
    (woven : Woven last gaps texts words)
    (blank : ∀ gap ∈ gaps.dropLast, ∀ byte ∈ gap, isBlank byte = true) :
    Woven last (gaps.map Text.onOneLine) texts words := by
  induction woven with
  | stop gap => exact .stop gap.onOneLine
  | token _ stands more inductionHypothesis =>
      obtain ⟨next, others, rfl⟩ := more.exists_cons
      rw [List.dropLast_cons_cons, List.forall_mem_cons] at blank
      refine .token ((Closed.of_blank (isBlank_onOneLine blank.1)).gap _) ?_
        (inductionHypothesis blank.2)
      rw [← more.onOneLine_weave]
      exact stands.of_exchanges (exchanges_onOneLine _)

/-- On one line the words behind the first comment in front of a token are not read. -/
theorem Woven.exists_cut
    (woven : Woven last gaps texts words)
    (commented : ¬∀ gap ∈ gaps.dropLast, ∀ byte ∈ gap, isBlank byte = true) :
    ∃ gaps' count, count < words.length ∧
      weave gaps' (texts.take count) = (weave gaps texts).onOneLine ∧
      Woven last gaps' (texts.take count) (words.take count) := by
  induction woven with
  | stop _ => exact absurd (List.forall_mem_nil _) commented
  | @token last gap text gaps texts word words front stands more inductionHypothesis =>
      by_cases blank : ∀ byte ∈ gap, isBlank byte = true
      · have later : ¬∀ gap ∈ gaps.dropLast, ∀ byte ∈ gap, isBlank byte = true := by
          obtain ⟨next, others, rfl⟩ := more.exists_cons
          rw [List.dropLast_cons_cons, List.forall_mem_cons] at commented
          exact fun others => commented ⟨blank, others⟩
        obtain ⟨gaps', count, less, equal, woven'⟩ := inductionHypothesis later
        refine ⟨gap.onOneLine :: gaps', count + 1, Nat.succ_lt_succ less, ?_,
          .token ((Closed.of_blank (isBlank_onOneLine blank)).gap _) ?_ woven'⟩
        · rw [List.take_succ_cons, weave_cons_cons, weave_cons_cons, equal, onOneLine_append,
            onOneLine_append, onOneLine_of_not_mem stands.lineFeed_not_mem]
        · rw [equal]
          exact stands.of_exchanges (exchanges_onOneLine _)
      · exact ⟨[(gap ++ (text ++ weave gaps texts)).onOneLine], 0, Nat.succ_pos _, rfl,
          .stop (front.onOneLine_of_commented blank)⟩

/-- With a comment in front of a token a source has not all of its words on one line, but
only those in front of the first such comment. -/
theorem exists_take_words_onOneLine
    {source : Text}
    (commented : ¬source.Uncommented) :
    ∃ count < (ofText source).body.length,
      (ofText source.onOneLine).body.map Token.word =
        ((ofText source).body.map Token.word).take count := by
  obtain ⟨whole, woven⟩ := woven_source source
  obtain ⟨gaps', count, less, equal, woven'⟩ := woven.exists_cut commented
  rw [whole] at equal
  rw [List.length_map] at less
  refine ⟨count, less, ?_⟩
  rw [← equal]
  exact woven'.body .start

/-- A source has the same words on one line exactly if no comment stands in front of a
token. -/
theorem words_onOneLine_iff (source : Text) :
    (ofText source.onOneLine).body.map Token.word = (ofText source).body.map Token.word ↔
      source.Uncommented := by
  constructor
  · intro same
    by_contra commented
    obtain ⟨count, less, cut⟩ := exists_take_words_onOneLine commented
    have lengths := congrArg List.length (cut.symm.trans same)
    rw [List.length_take, List.length_map, Nat.min_eq_left less.le] at lengths
    exact less.ne lengths
  · intro uncommented
    obtain ⟨whole, woven⟩ := woven_source source
    have equal := woven.onOneLine_weave
    rw [whole] at equal
    rw [equal]
    exact (woven.onOneLine uncommented).body .start

/-- The tokens of a text without line feeds are on its line. -/
theorem line_of_mem_body
    {source : Text}
    (oneLine : Text.lineFeed ∉ source) :
    ∀ token ∈ (ofText source).body, token.pos.line = 1 := by
  intro token member
  obtain ⟨line, -⟩ := (tokens_lie_in_source source).2.2.2 token (body_subset_tokenize _ member)
  rw [line, List.count_eq_zero.mpr fun inside => oneLine (List.mem_of_mem_take inside)]
  rfl

end Lexer

namespace Program

/-- The program of a chunk whose statements no line break alone ends, and in which no
comment stands in front of a token, is that of the chunk on one line. -/
theorem exists_ofText_onOneLine
    {chunk : Text}
    (clean : (Program.ofText chunk).errors = [])
    (uncommented : chunk.Uncommented)
    (seamless : Grammar.Seamless [0] (Lexer.ofText chunk).body) :
    ∃ program, Program.ofText chunk.onOneLine = ⟨program, []⟩ ∧
      Block.bare program = Block.bare (Program.ofText chunk).program := by
  have derived := Parser.program_sound (.ofTokens (Token.ofText chunk)) rfl clean
  obtain ⟨flattened, derived', same⟩ := derived.flat seamless
  have alike : Token.AlikeFrom [0] (Grammar.flat (Lexer.ofText chunk).body)
      (Lexer.ofText chunk.onOneLine).body := by
    rw [Grammar.flat, ← (Lexer.words_onOneLine_iff chunk).mpr uncommented]
    exact Token.alikeFrom_of_line
      (Lexer.line_of_mem_body (Text.lineFeed_not_mem_onOneLine chunk)) [0]
  obtain ⟨program, derived'', same'⟩ := derived'.transport alike
  exact ⟨program, Parser.program_complete derived'' rfl, same'.trans same⟩

end Program

/-! ## Evaluation -/

namespace Console

/-- A program without syntax errors does not start with a colon. -/
theorem head?_ne_colon
    {text : Text}
    (clean : (Program.ofText text).errors = []) :
    text.head? ≠ some colon := by
  intro heads
  obtain ⟨rest, rfl⟩ := List.head?_eq_some_iff.mp heads
  have first : (Lexer.ofText (colon :: rest)).next.1.kind = .illegal := by
    rw [Lexer.next_eq]
    rfl
  have member : (Lexer.ofText (colon :: rest)).next.1 ∈ Token.ofText (colon :: rest) := by
    rw [Token.ofText, Lexer.tokenize]
    split <;> exact List.mem_cons_self
  obtain ⟨error, others, failed, -⟩ := Program.exists_error_of_illegal member first
  cases clean.symm.trans failed

/-- A chunk without syntax errors is evaluated as its program, up to positions. -/
theorem exists_eval_eq
    {chunk : Text}
    (clean : (Program.ofText chunk).errors = []) :
    ∃ program : Program, Block.bare program = Block.bare (Program.ofText chunk).program ∧
      ∀ color session, eval color session chunk =
        ⟨(session.execEach program).2,
          (session.execEach program).1.flatMap (outcomeText color), false⟩ := by
  have keeps : chunk.KeepsIllegal := by
    intro token member illegal
    obtain ⟨error, others, failed, -⟩ := Program.exists_error_of_illegal member illegal
    cases clean.symm.trans failed
  obtain ⟨down, below⟩ := keeps.exists_below
  have alike : Token.AlikeFrom [0] (Lexer.ofText chunk).body (Lexer.ofText chunk.trim).body :=
    Token.alikeFrom_of_below (below.imp fun _ _ => Token.Below.symm).flip [0]
  have derived := Parser.program_sound (.ofTokens (Token.ofText chunk)) rfl clean
  obtain ⟨program, derived', same⟩ := derived.transport alike
  have parsed : Program.ofText chunk.trim = ⟨program, []⟩ := Parser.program_complete derived' rfl
  refine ⟨program, same, fun color session => ?_⟩
  by_cases blank : chunk.trim = []
  · rw [blank, Lexer.body_eq, Lexer.next_eq] at derived'
    obtain rfl : program = [] := derived'.eq_nil
    rw [eval, if_pos blank]
    rfl
  · have source : ¬chunk.trim.head? = some colon := head?_ne_colon (by rw [parsed])
    rw [eval, if_neg blank, if_neg source, parsed]
    rfl

/-- A text that is not unfinished is read at once. -/
theorem read_of_isFinished
    {text : Text}
    (finished : isFinished text = true)
    {prompts : Prompts}
    {strict : Bool}
    (accepted : Accepted prompts strict)
    (ending : Ending)
    (left : List Text) :
    read prompts ⟨text :: left, ending, strict⟩ = ⟨.read text, [prompts.first], left⟩ := by
  have whole : extend [] text = text := rfl
  rw [read, readFrom, accepted.promptFor_nil, whole]
  exact if_pos finished

/-- The history entry of a chunk means what the chunk means, where line breaks do nothing but
separate tokens: no comment stands in front of a token, and no statement ends at a closing
brace only because the next line, which would go on with it, is another one.  The entry
of such a chunk without syntax errors has none either, and stands for the same program
without positions.  Read again it is one chunk, which prints what the first one prints and
leaves the same bindings without positions. -/
theorem history_entries_mean_the_same
    {chunk : Text}
    (clean : (Program.ofText chunk).errors = [])
    (uncommented : chunk.Uncommented)
    (seamless : Grammar.Seamless [0] (Lexer.ofText chunk).body) :
    let entry := History.entry chunk
    (Program.ofText entry).errors = [] ∧
    Block.bare (Program.ofText entry).program = Block.bare (Program.ofText chunk).program ∧
    (∀ prompts ending strict left, Accepted prompts strict →
      read prompts ⟨entry :: left, ending, strict⟩ = ⟨.read entry, [prompts.first], left⟩) ∧
    ∀ color session,
      let first := eval color session chunk
      let again := eval color session entry
      again.output = first.output ∧ again.quit = first.quit ∧
        again.session.machine.scope.bare = first.session.machine.scope.bare ∧
        bindingsText color again.session.bindings = bindingsText color first.session.bindings := by
  intro entry
  obtain ⟨parsed, whole, same⟩ := Program.exists_ofText_onOneLine clean uncommented seamless
  have equal : Program.ofText entry = ⟨parsed, []⟩ := whole
  have clean' : (Program.ofText entry).errors = [] := by rw [equal]
  have same' : Block.bare (Program.ofText entry).program =
      Block.bare (Program.ofText chunk).program := by
    rw [equal]
    exact same
  refine ⟨clean', same', fun prompts ending strict left accepted => ?_, fun color session => ?_⟩
  · refine read_of_isFinished ((isFinished_iff entry).mpr ?_) accepted ending left
    rw [clean']
    rfl
  · obtain ⟨program, bare, evaluated⟩ := exists_eval_eq clean
    obtain ⟨program', bare', evaluated'⟩ := exists_eval_eq clean'
    obtain ⟨output, scope⟩ := session.execEach_bare program color
    obtain ⟨output', scope'⟩ := session.execEach_bare program' color
    rw [bare', same', ← bare] at output' scope'
    have bindings := scope'.trans scope.symm
    intro first again
    have first_eq : first = _ := evaluated color session
    have again_eq : again = _ := evaluated' color session
    rw [first_eq, again_eq]
    exact ⟨output'.trans output.symm, rfl, bindings, Scope.bindingsText_eq_of_bare bindings color⟩

/-- A chunk of two lines is run again from one: a number does not go on with the function in
front of it, and the comment stands behind the last token. -/
theorem history_entries_mean_the_same_comment :
    let chunk : Text := "fn() \x7bfn() \x7b\x7d\n7\x7d() // c"
    let entry : Text := "fn() \x7bfn() \x7b\x7d 7\x7d() // c"
    History.entry chunk = entry ∧ (Program.ofText chunk).errors = [] ∧ chunk.Uncommented ∧
      Grammar.Seamless [0] (Lexer.ofText chunk).body ∧ (Program.ofText entry).errors = [] ∧
      (eval false (.start (.atMost 9)) entry).output = "7\n" := by
  intro chunk entry
  have line : History.entry chunk = entry := by decide +kernel
  have clean : (Program.ofText chunk).errors = [] := by decide +kernel
  have uncommented : chunk.Uncommented := by decide +kernel
  have seamless : Grammar.Seamless [0] (Lexer.ofText chunk).body :=
    Grammar.seamless_of_isChain (by decide +kernel) [0]
  have printed : (eval false (.start (.atMost 9)) chunk).output = "7\n" := by decide +kernel
  obtain ⟨clean', -, -, runs⟩ := history_entries_mean_the_same clean uncommented seamless
  rw [line] at clean' runs
  exact ⟨line, clean, uncommented, seamless, clean', (runs false _).1.trans printed⟩

/-- Where a line break does more, the entry of a chunk is another program.  A comment takes
up the rest of the entry, which is then unfinished, and a function is called with the
number on the next line. -/
theorem history_entries_lose_line_breaks :
    let prompts : Prompts := ⟨"> ", ". "⟩
    let session : Session := .start (.atMost 9)
    let commented : Text := "(1 // c\n+ 2)"
    let apart : Text := "fn() \x7bfn(a) \x7b\x7d\n(2)\x7d()"
    ((read prompts ⟨["(1 // c", "+ 2)"], .closed, true⟩).chunk = .read commented ∧
      (Program.ofText commented).errors = [] ∧ (eval false session commented).output = "3\n" ∧
      SyntaxError.isIncomplete (Program.ofText (History.entry commented)).errors = true) ∧
    (read prompts ⟨Text.lines apart, .closed, true⟩).chunk = .read apart ∧
      (Program.ofText apart).errors = [] ∧ (eval false session apart).output = "2\n" ∧
      (Program.ofText (History.entry apart)).errors = [] ∧
      (eval false session (History.entry apart)).output = [] := by
  decide +kernel

end Console
end Siren
