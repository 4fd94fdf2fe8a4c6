import Mathlib.Data.List.TakeWhile
import Siren.Proofs.ContinuationLines

/-!
# Trimmed texts

Trimming a text cuts off white space of all scripts at both ends, and nothing is left of a
text that holds nothing else.  No byte that is cut off may start a token or a comment: in
UTF-8 the bytes of a code point beyond ASCII are beyond ASCII too.
-/

namespace Siren

/-! ## Bytes of white space -/

namespace Rune

/-- The bytes of a piece behind its first one are beyond ASCII. -/
theorem exists_bytes_head (first : UInt8) (rest : Text) :
    ∃ others, (head first rest).bytes = first :: others ∧ others <+: rest ∧
      ∀ byte ∈ others, 128 ≤ byte := by
  have continues {byte : UInt8} (fits : isContinuation byte = true) : 128 ≤ byte := by
    rw [isContinuation, Bool.and_eq_true, decide_eq_true_eq] at fits
    exact fits.1
  have follows {first byte : UInt8} (fits : secondFits first byte = true) : 128 ≤ byte := by
    simp only [secondFits, isContinuation] at fits
    repeat' split at fits
    all_goals
      simp only [Bool.and_eq_true, decide_eq_true_eq, UInt8.le_iff_toNat_le,
        UInt8.toNat_ofNat] at fits ⊢
      omega
  unfold head
  repeat' split
  all_goals try exact ⟨[], rfl, List.nil_prefix, List.forall_mem_nil _⟩
  · rename_i second more fits
    exact ⟨[second], rfl, ⟨more, rfl⟩, List.forall_mem_singleton.mpr (continues fits)⟩
  · rename_i second third more fits
    rw [Bool.and_eq_true] at fits
    refine ⟨[second, third], rfl, ⟨more, rfl⟩, ?_⟩
    exact List.forall_mem_cons.mpr
      ⟨follows fits.1, List.forall_mem_singleton.mpr (continues fits.2)⟩
  · rename_i second third fourth more fits
    rw [Bool.and_eq_true, Bool.and_eq_true] at fits
    refine ⟨[second, third, fourth], rfl, ⟨more, rfl⟩, ?_⟩
    exact List.forall_mem_cons.mpr ⟨follows fits.1.1,
      List.forall_mem_cons.mpr
        ⟨continues fits.1.2, List.forall_mem_singleton.mpr (continues fits.2)⟩⟩

end Rune

namespace Text

/-- A text of bytes that start neither a token nor a comment. -/
def Unseen (text : Text) : Prop :=
  ∀ byte ∈ text, Lexeme.isVisible byte = false

/-- Every piece of a text is the first one of what is left of it there. -/
theorem exists_head_of_mem_runes
    {text : Text}
    {rune : Rune}
    (member : rune ∈ text.runes) :
    ∃ first rest, rune = Rune.head first rest := by
  fun_induction runes text with
  | case1 => cases member
  | case2 first rest inductionHypothesis =>
      rcases List.mem_cons.mp member with rfl | later
      · exact ⟨first, rest, rfl⟩
      · exact inductionHypothesis later

theorem bytes_ne_nil_of_mem_runes
    {text : Text}
    {rune : Rune}
    (member : rune ∈ text.runes) :
    rune.bytes ≠ [] := by
  obtain ⟨first, rest, rfl⟩ := exists_head_of_mem_runes member
  exact List.length_pos_iff.mp (Rune.length_head_pos first rest)

/-- White space is made of bytes that start neither a token nor a comment. -/
theorem unseen_of_mem_runes
    {text : Text}
    {rune : Rune}
    (member : rune ∈ text.runes)
    (blank : rune.isBlank = true) :
    Unseen rune.bytes := by
  obtain ⟨first, rest, rfl⟩ := exists_head_of_mem_runes member
  obtain ⟨others, bytes, -, high⟩ := Rune.exists_bytes_head first rest
  rw [bytes]
  refine List.forall_mem_cons.mpr ⟨Rune.isVisible_of_isBlank_head blank, fun byte inside => ?_⟩
  have beyond := high byte inside
  rw [Bool.eq_false_iff]
  intro visible
  simp only [Lexeme.isVisible, Bool.and_eq_true, decide_eq_true_eq, UInt8.le_iff_toNat_le,
    UInt8.toNat_ofNat] at visible beyond
  omega

theorem unseen_ofRunes
    {text : Text}
    {runes : List Rune}
    (part : runes ⊆ text.runes)
    (blank : ∀ rune ∈ runes, rune.isBlank = true) :
    Unseen (ofRunes runes) := by
  intro byte inside
  obtain ⟨rune, member, within⟩ := List.mem_flatMap.mp inside
  exact unseen_of_mem_runes (part member) (blank rune member) byte within

/-- The pieces of a text make it up. -/
theorem ofRunes_runes (text : Text) : ofRunes text.runes = text := by
  fun_induction runes text with
  | case1 => rfl
  | case2 first rest inductionHypothesis =>
      obtain ⟨others, bytes, ⟨more, whole⟩, -⟩ := Rune.exists_bytes_head first rest
      rw [ofRunes, List.flatMap_cons, ← ofRunes, inductionHypothesis, bytes, ← whole]
      simp

theorem ofRunes_append (first second : List Rune) :
    ofRunes (first ++ second) = ofRunes first ++ ofRunes second :=
  List.flatMap_append

/-! ## Trimming -/

/-- The white space in front of a text. -/
def lead (text : Text) : Text :=
  ofRunes (text.runes.takeWhile Rune.isBlank)

/-- Trimming cuts white space off both ends. -/
theorem exists_trim (text : Text) :
    ∃ trail, text = text.lead ++ text.trim ++ trail ∧ Unseen text.lead ∧ Unseen trail := by
  let started := text.runes.dropWhile Rune.isBlank
  let ended := started.reverse.takeWhile Rune.isBlank
  have left : started ⊆ text.runes := (List.dropWhile_sublist _).subset
  have within : ended.reverse ⊆ text.runes := fun rune member =>
    left (List.mem_reverse.mp ((List.takeWhile_sublist _).subset (List.mem_reverse.mp member)))
  have cut : started = (started.reverse.dropWhile Rune.isBlank).reverse ++ ended.reverse := by
    rw [← List.reverse_append, List.takeWhile_append_dropWhile, List.reverse_reverse]
  refine ⟨ofRunes ended.reverse, ?_, ?_, ?_⟩
  · calc
      text = ofRunes (text.runes.takeWhile Rune.isBlank ++ started) := by
        rw [List.takeWhile_append_dropWhile, ofRunes_runes]
      _ = text.lead ++ (text.trim ++ ofRunes ended.reverse) := by
        rw [ofRunes_append, cut, ofRunes_append]
        rfl
      _ = text.lead ++ text.trim ++ ofRunes ended.reverse := (List.append_assoc ..).symm
  · exact unseen_ofRunes (List.takeWhile_sublist _).subset fun rune member =>
      List.mem_takeWhile_imp member
  · exact unseen_ofRunes within fun rune member =>
      List.mem_takeWhile_imp (List.mem_reverse.mp member)

/-- Nothing is left of white space, and of nothing else. -/
theorem trim_eq_nil_iff (text : Text) : text.trim = [] ↔ text.isBlank = true := by
  let started := text.runes.dropWhile Rune.isBlank
  let kept := (started.reverse.dropWhile Rune.isBlank).reverse
  have part : kept ⊆ text.runes := fun rune member =>
    (List.dropWhile_sublist _).subset (List.mem_reverse.mp
      ((List.dropWhile_sublist _).subset (List.mem_reverse.mp member)))
  have none : text.trim = [] ↔ kept = [] := by
    rw [trim, ofRunes, List.flatMap_eq_nil_iff]
    constructor
    · intro empty
      rw [List.eq_nil_iff_forall_not_mem]
      exact fun rune member => bytes_ne_nil_of_mem_runes (part member) (empty rune member)
    · intro empty rune member
      exact absurd member (List.eq_nil_iff_forall_not_mem.mp empty rune)
  rw [none, List.reverse_eq_nil_iff, List.dropWhile_eq_nil_iff, isBlank, List.all_eq_true]
  constructor
  · intro blank rune member
    rw [← List.takeWhile_append_dropWhile (p := Rune.isBlank) (l := text.runes),
      List.mem_append] at member
    rcases member with inside | behind
    · exact List.mem_takeWhile_imp inside
    · exact blank rune (List.mem_reverse.mpr behind)
  · intro blank rune member
    exact blank rune ((List.dropWhile_sublist _).subset (List.mem_reverse.mp member))

end Text
end Siren
