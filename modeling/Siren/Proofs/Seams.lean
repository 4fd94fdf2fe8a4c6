import Mathlib.Data.List.Chain
import Siren.Proofs.WordByWord

/-!
# Seams

A statement that ends in a closing brace ends before an operator or a parenthesis only if
these are on a later line.  Such a place is a seam: with the same tokens on one line the
statement goes on.  Without seams tokens stand for the same program on one line, since a
line break makes no other difference to a derivation.
-/

namespace Siren
namespace Grammar

open Token (Balanced nesting)

/-- A statement that is no choice ends at its closing brace only because the token behind
it, which would go on with it, is on a later line.  No parenthesis is open there inside the
innermost brace; `opened` counts what is open before the tokens. -/
inductive Seam (opened : List Nat) : List Token → Prop where
  | seam {front statement back : List Token} {next : Token} {stmt : Stmt}
      (derived : Statement statement stmt)
      (plain : ¬StartsChoice statement)
      (goesOn : GoesOn next.kind)
      (breaks : BreaksLine statement next)
      (ungrouped : (nesting opened (front ++ statement)).head? = some 0) :
      Seam opened (front ++ (statement ++ next :: back))

variable {opened : List Nat} {tokens tokens' : List Token}

/-- A seam of a part is one of the whole. -/
theorem Seam.append_left
    (front : List Token)
    (seam : Seam (nesting opened front) tokens) :
    Seam opened (front ++ tokens) := by
  cases seam with
  | @seam front' statement back next stmt derived plain goesOn breaks ungrouped =>
      rw [← List.append_assoc]
      refine .seam derived plain goesOn breaks ?_
      rwa [List.append_assoc, Token.nesting_append]

theorem Seam.append_right
    (seam : Seam opened tokens)
    (back : List Token) :
    Seam opened (tokens ++ back) := by
  cases seam with
  | @seam front statement back' next stmt derived plain goesOn breaks ungrouped =>
      rw [List.append_assoc, List.append_assoc, List.cons_append]
      exact .seam derived plain goesOn breaks ungrouped

/-- No statement of the tokens is ended by a line break alone. -/
def Seamless (opened : List Nat) (tokens : List Token) : Prop :=
  ¬Seam opened tokens

namespace Seamless

variable {parens : Nat} {outer : List Nat} {token : Token}

theorem uncons (seamless : Seamless opened (token :: tokens)) :
    Seamless (Token.nest opened token.kind) tokens :=
  fun seam => seamless (Seam.append_left [token] seam)

theorem left (seamless : Seamless opened (tokens ++ tokens')) : Seamless opened tokens :=
  fun seam => seamless (seam.append_right tokens')

/-- Behind a balanced part as much is open as before it. -/
theorem right
    (seamless : Seamless (parens :: outer) (tokens ++ tokens'))
    (balanced : Balanced tokens) :
    Seamless (parens :: outer) tokens' :=
  fun seam => seamless (Seam.append_left tokens (by rwa [balanced parens outer]))

end Seamless

instance (kind : Kind) : Decidable (GoesOn kind) :=
  decidable_of_iff ((Continuation.ofKind? kind).isSome = true)
    (by rw [goesOn_iff, Option.isSome_iff_exists])

/-- There is no seam if no line that goes on with an expression follows a closing brace at
the end of another one. -/
theorem seamless_of_isChain
    (chain : tokens.IsChain fun token next =>
      token.kind = .rightBrace → token.pos.line < next.pos.line → ¬GoesOn next.kind)
    (opened : List Nat) :
    Seamless opened tokens := by
  intro seam
  cases seam with
  | @seam front statement back next stmt derived plain goesOn breaks ungrouped =>
      obtain ⟨last, ends, kind, later⟩ := breaks
      obtain ⟨start, rfl⟩ := List.getLast?_eq_some_iff.mp ends
      rw [List.append_assoc, List.singleton_append, ← List.append_assoc,
        List.isChain_append_cons_cons] at chain
      exact chain.2.1 kind later goesOn

/-! ## Tokens on one line -/

/-- The tokens on one line. -/
def flat (tokens : List Token) : List Token :=
  Word.tokens (tokens.map Token.word)

@[simp] theorem flat_nil : flat [] = [] := rfl

@[simp] theorem flat_cons (token : Token) (tokens : List Token) :
    flat (token :: tokens) = ⟨token.kind, token.lexeme, .nowhere⟩ :: flat tokens := rfl

@[simp] theorem flat_append (tokens tokens' : List Token) :
    flat (tokens ++ tokens') = flat tokens ++ flat tokens' := by
  simp [flat]

theorem not_breaksLine_flat (tokens : List Token) (kind : Kind) (lexeme : Text) :
    ¬BreaksLine (flat tokens) ⟨kind, lexeme, .nowhere⟩ :=
  Word.not_breaksLine _ kind lexeme

theorem startsChoice_flat (tokens : List Token) :
    StartsChoice (flat tokens) ↔ StartsChoice tokens := by
  cases tokens <;> simp [StartsChoice]

/-- Derivations without seams are carried to one line. -/
theorem carries_flat :
    Carries fun opened tokens tokens' => Seamless opened tokens ∧ tokens' = flat tokens where
  nil related := related.2
  cons := by
    rintro opened token tokens _ ⟨seamless, rfl⟩
    exact ⟨_, _, rfl, rfl, rfl, seamless.uncons, rfl⟩
  split := by
    rintro parens outer first second _ ⟨seamless, rfl⟩ balanced
    refine ⟨flat first, flat second, flat_append first second, ⟨seamless.left, rfl⟩,
      ⟨seamless.right balanced, rfl⟩, ?_⟩
    rintro rfl next heads next' heads'
    obtain ⟨back, rfl⟩ := List.head?_eq_some_iff.mp heads
    obtain rfl := Option.some.inj heads'
    refine ⟨fun breaks => absurd breaks (not_breaksLine_flat first _ _), fun stmt derived ends => ?_⟩
    by_cases choice : StartsChoice first
    · exact .inl ((startsChoice_flat first).mpr choice)
    · refine .inr (.inl fun (goesOn : GoesOn next.kind) => ?_)
      -- Only the line break is left to end the statement here.
      have breaks : BreaksLine first next :=
        (ends.resolve_left choice).resolve_left fun stops => stops goesOn
      have ungrouped : (nesting (0 :: outer) ([] ++ first)).head? = some 0 := by
        rw [List.nil_append, balanced 0 outer]
        rfl
      exact seamless (.seam derived choice goesOn breaks ungrouped)

/-- Without seams the tokens of statements stand for the same ones on one line. -/
theorem Statements.flat
    {stmts : List Stmt}
    (derived : Statements tokens stmts)
    {outer : List Nat}
    (seamless : Seamless (0 :: outer) tokens) :
    ∃ stmts', Statements (flat tokens) stmts' ∧ Block.bare stmts' = Block.bare stmts :=
  derived.carry carries_flat ⟨seamless, rfl⟩

end Grammar
end Siren
