import Mathlib.Data.List.Induction
import Siren.Proofs.TokenLayout

/-!
# Lines of a source

A source falls into pieces at its line feeds.  The line of a position counts the line
feeds in front of it, and the column the bytes behind the last of these, so the piece
with the number of the line goes on with those bytes and then up to the next line feed.
-/

namespace Siren
namespace Text

/-! ## Pieces -/

theorem head?_lines (text : Text) : (lines text).head? = some (text.takeWhile (· ≠ lineFeed)) := by
  induction text with
  | nil => rfl
  | cons byte text inductionHypothesis =>
      by_cases feed : byte = lineFeed
      · rw [lines, if_pos feed, List.takeWhile_cons_of_neg (by simp [feed])]
        rfl
      · rw [lines, if_neg feed, List.takeWhile_cons_of_pos (by simp [feed])]
        cases split : lines text with
        | nil => exact absurd split (lines_ne_nil text)
        | cons piece pieces =>
            rw [split] at inductionHypothesis
            rw [← Option.some.inj inductionHypothesis]
            rfl

/-- A line feed keeps the pieces of two texts apart. -/
theorem lines_append_lineFeed (first second : Text) :
    lines (first ++ lineFeed :: second) = lines first ++ lines second := by
  induction first with
  | nil => rfl
  | cons byte first inductionHypothesis =>
      rw [List.cons_append, lines, lines, inductionHypothesis]
      cases split : lines first with
      | nil => exact absurd split (lines_ne_nil first)
      | cons piece pieces => split <;> rfl

theorem length_lines (text : Text) : (lines text).length = 1 + text.count lineFeed := by
  induction text with
  | nil => rfl
  | cons byte text inductionHypothesis =>
      rw [lines, List.count_cons]
      by_cases feed : byte = lineFeed
      · rw [if_pos feed, List.length_cons, inductionHypothesis, feed, if_pos (beq_self_eq_true _)]
        omega
      · rw [if_neg feed, if_neg (by simpa using feed), Nat.add_zero, ← inductionHypothesis]
        cases split : lines text with
        | nil => exact absurd split (lines_ne_nil text)
        | cons piece pieces => rfl

/-! ## The last piece of a part -/

/-- The bytes behind the last line feed. -/
def lastLine (text : Text) : Text :=
  (text.reverse.takeWhile (· ≠ lineFeed)).reverse

theorem lastLine_append_singleton (text : Text) (byte : UInt8) :
    lastLine (text ++ [byte]) = if byte = lineFeed then [] else lastLine text ++ [byte] := by
  rw [lastLine, List.reverse_append, List.reverse_singleton, List.singleton_append]
  split
  · rename_i feed
    rw [List.takeWhile_cons_of_neg (by simp [feed])]
    rfl
  · rename_i other
    rw [List.takeWhile_cons_of_pos (by simp [other]), List.reverse_cons, lastLine]

/-- A text is its last piece, or that piece behind a line feed. -/
theorem eq_lastLine_or_exists (text : Text) :
    (lineFeed ∉ text ∧ text.lastLine = text) ∨
      ∃ front, text = front ++ lineFeed :: text.lastLine := by
  induction text using List.reverseRecOn with
  | nil => exact .inl ⟨List.not_mem_nil, rfl⟩
  | append_singleton text byte inductionHypothesis =>
      rw [lastLine_append_singleton]
      by_cases feed : byte = lineFeed
      · rw [if_pos feed, feed]
        exact .inr ⟨text, rfl⟩
      · rw [if_neg feed]
        rcases inductionHypothesis with ⟨single, whole⟩ | ⟨front, equal⟩
        · refine .inl ⟨?_, by rw [whole]⟩
          rw [List.mem_append, List.mem_singleton, not_or]
          exact ⟨single, Ne.symm feed⟩
        · refine .inr ⟨front, ?_⟩
          rw [← List.cons_append, ← List.append_assoc, ← equal]

theorem lineFeed_not_mem_lastLine (text : Text) : lineFeed ∉ text.lastLine := by
  intro member
  have selected := List.mem_takeWhile_imp (List.mem_reverse.mp member)
  simp at selected

/-- The piece in which a part of a text ends. -/
theorem getElem?_lines (before after : Text) :
    (lines (before ++ after))[before.count lineFeed]? =
      some (before.lastLine ++ after.takeWhile (· ≠ lineFeed)) := by
  have piece : (before.lastLine ++ after).takeWhile (· ≠ lineFeed) =
      before.lastLine ++ after.takeWhile (· ≠ lineFeed) := by
    apply List.takeWhile_append_of_pos
    rintro byte member
    rw [decide_eq_true_eq]
    rintro rfl
    exact before.lineFeed_not_mem_lastLine member
  rw [← piece, ← head?_lines]
  rcases before.eq_lastLine_or_exists with ⟨single, whole⟩ | ⟨front, equal⟩
  · rw [List.count_eq_zero_of_not_mem single, whole, List.head?_eq_getElem?]
  · have first : before.count lineFeed = (lines front).length := by
      have none := List.count_eq_zero_of_not_mem before.lineFeed_not_mem_lastLine
      rw [equal, List.count_append, List.count_cons_self, none, length_lines]
      omega
    have split : lines (before ++ after) = lines front ++ lines (before.lastLine ++ after) := by
      rw [← lines_append_lineFeed, ← List.cons_append, ← List.append_assoc, ← equal]
    rw [first, split, List.getElem?_append_right (Nat.le_refl _), Nat.sub_self,
      List.head?_eq_getElem?]

/-- Trimming a piece keeps what stands in front of a byte that is no carriage return. -/
theorem trimCarriageReturns_append_cons
    {byte : UInt8}
    (other : byte ≠ carriageReturn)
    (front rest : Text) :
    trimCarriageReturns (front ++ byte :: rest) = front ++ byte :: trimCarriageReturns rest := by
  have stops : (byte :: front.reverse).dropWhile (· = carriageReturn) = byte :: front.reverse :=
    List.dropWhile_cons_of_neg (by simp [other])
  rw [trimCarriageReturns, trimCarriageReturns, List.reverse_append, List.reverse_cons,
    List.append_assoc, List.singleton_append, List.dropWhile_append, stops]
  split
  · rename_i none
    rw [List.isEmpty_iff.mp none]
    simp
  · simp

/-! ## Pieces of ASCII -/

/-- The last piece of a text is ASCII. -/
def PlainLine (text : Text) : Prop :=
  ∀ byte ∈ text.lastLine, byte < 128

theorem PlainLine.nil : PlainLine [] := List.forall_mem_nil _

/-- One more byte: a line feed, or an ASCII byte behind ASCII. -/
theorem PlainLine.append_singleton
    {text : Text}
    {byte : UInt8}
    (plain : byte = lineFeed ∨ PlainLine text ∧ byte < 128) :
    PlainLine (text ++ [byte]) := by
  rw [PlainLine, lastLine_append_singleton]
  split
  · exact List.forall_mem_nil _
  · rename_i other
    obtain ⟨before, single⟩ := plain.resolve_left other
    exact List.forall_mem_append.mpr ⟨before, List.forall_mem_singleton.mpr single⟩

theorem PlainLine.append
    {text more : Text}
    (plain : PlainLine text)
    (ascii : ∀ byte ∈ more, byte < 128) :
    PlainLine (text ++ more) := by
  induction more generalizing text with
  | nil =>
      rw [List.append_nil]
      exact plain
  | cons byte more inductionHypothesis =>
      rw [List.forall_mem_cons] at ascii
      rw [List.append_cons]
      exact inductionHypothesis (.append_singleton (.inr ⟨plain, ascii.1⟩)) ascii.2

/-- What is shown of the piece in which a part ends, when no blank follows the part: that
byte is shown, and the bytes in front of it are those of the part. -/
theorem PlainLine.shown
    {text : Text}
    (plain : PlainLine text)
    {first : UInt8}
    (nonblank : Lexeme.isBlank first = false)
    (rest : Text) :
    let shown := trimCarriageReturns (text.lastLine ++ (first :: rest).takeWhile (· ≠ lineFeed))
    text.lastLine.length < shown.length ∧ shown[text.lastLine.length]? = some first ∧
      ∀ byte ∈ shown.take text.lastLine.length, byte < 128 := by
  have notFeed : first ≠ lineFeed := by
    rintro rfl
    cases nonblank
  have notReturn : first ≠ carriageReturn := by
    rintro rfl
    cases nonblank
  intro shown
  have split : shown =
      text.lastLine ++ first :: trimCarriageReturns (rest.takeWhile (· ≠ lineFeed)) := by
    rw [← trimCarriageReturns_append_cons notReturn,
      ← List.takeWhile_cons_of_pos (by simpa using notFeed)]
  rw [split, List.length_append, List.length_cons, List.take_left,
    List.getElem?_append_right (Nat.le_refl _), Nat.sub_self]
  exact ⟨by omega, rfl, plain⟩

end Text

/-! ## Places of positions -/

namespace Position

/-- A position lies in the piece that its line counts, behind the bytes that its column
counts. -/
theorem getElem?_lines_behind (before after : Text) :
    (before ++ after).lines[((behind before).line - 1).toNat]? =
        some (before.lastLine ++ after.takeWhile (· ≠ Text.lineFeed)) ∧
      ((behind before).column - 1).toNat = before.lastLine.length := by
  have line : ((behind before).line - 1).toNat = before.count Text.lineFeed := by
    rw [behind]
    dsimp only
    omega
  have column : ((behind before).column - 1).toNat = before.lastLine.length := by
    rw [behind, Text.lastLine, List.length_reverse]
    dsimp only
    omega
  rw [line, column]
  exact ⟨Text.getElem?_lines before after, rfl⟩

theorem behind_bounds (before after : Text) :
    1 ≤ (behind before).line ∧ (behind before).line ≤ (before ++ after).lines.length ∧
      1 ≤ (behind before).column := by
  rw [Text.length_lines, List.count_append, behind]
  dsimp only
  omega

end Position
end Siren
