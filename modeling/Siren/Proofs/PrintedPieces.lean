import Siren.Proofs.WordByWord

/-!
# Pieces of printed forms

A printed form is put together from words, numbers, operators and lists.  Each of these
tells what it is and where it ends, if what follows does not go on with it.  A call is
printed behind what is called, so an expression is seen here as one that is no call, with
the lists of arguments behind it.  The first lexeme of a printed form tells the kind of
the expression, up to the minus sign of a number.
-/

namespace Siren

open Lexeme (Delimits)

/-! ## Words and numbers -/

namespace Text

variable {text text' rest rest' : Text}

/-- Two pieces of selected bytes before other bytes are the same. -/
theorem append_inj_of_select
    {select : UInt8 → Bool}
    (whole : ∀ byte ∈ text, select byte = true)
    (whole' : ∀ byte ∈ text', select byte = true)
    (stops : ∀ byte ∈ rest.head?, select byte = false)
    (stops' : ∀ byte ∈ rest'.head?, select byte = false)
    (equal : text ++ rest = text' ++ rest') :
    text = text' ∧ rest = rest' := by
  have first : text = text' := by
    rw [← Lexeme.takeWhile_append_of_delimits whole stops, equal,
      Lexeme.takeWhile_append_of_delimits whole' stops']
  subst first
  exact ⟨rfl, List.append_cancel_left equal⟩

theorem ofNat_injective {value value' : Nat} (equal : ofNat value = ofNat value') :
    value = value' := by
  rw [← foldl_ofNat value, equal, foldl_ofNat]

/-- A printed integer tells which it is and where it ends. -/
theorem ofInt_append_inj
    {value value' : Int}
    (delimits : Delimits rest)
    (delimits' : Delimits rest')
    (equal : ofInt value ++ rest = ofInt value' ++ rest') :
    value = value' ∧ rest = rest' := by
  have digits (number number' : Nat) (equal : ofNat number ++ rest = ofNat number' ++ rest') :
      number = number' ∧ rest = rest' := by
    obtain ⟨same, behind⟩ := append_inj_of_select (fun _ => isDigit_of_mem_ofNat)
      (fun _ => isDigit_of_mem_ofNat) delimits.isDigit delimits'.isDigit equal
    exact ⟨ofNat_injective same, behind⟩
  have unsigned (number : Nat) (others behind : Text) :
      ofNat number ++ others ≠ 45 :: behind := by
    obtain ⟨first, more, spelled, -, other⟩ := exists_ofNat_eq_cons number
    rw [spelled]
    exact fun same => other (List.cons.inj same).1
  cases value with
  | ofNat number =>
      cases value' with
      | ofNat number' => simpa using digits number number' equal
      | negSucc number' => exact absurd equal (unsigned number _ _)
  | negSucc number =>
      cases value' with
      | ofNat number' => exact absurd equal.symm (unsigned number' _ _)
      | negSucc number' =>
          obtain ⟨same, behind⟩ := digits _ _ (List.cons.inj equal).2
          exact ⟨by omega, behind⟩

end Text

/-- Names are made of the bytes of words. -/
theorem Lexeme.isWordByte_of_isName
    {name : Text}
    (named : isName name = true) :
    ∀ byte ∈ name, isWordByte byte = true := by
  cases name with
  | nil => cases named
  | cons first others =>
      simp only [isName, Bool.and_eq_true] at named
      rw [List.forall_mem_cons, isWordByte, named.1.1]
      exact ⟨rfl, List.all_eq_true.mp named.1.2⟩

namespace BinaryOp

variable {op op' : BinaryOp}

/-- The operators that have a meaning. -/
def all : List BinaryOp :=
  [.add, .subtract, .multiply, .divide, .equal, .notEqual, .less, .lessEqual, .greater,
    .greaterEqual]

theorem mem_all_of_isKnown (known : op.isKnown = true) : op ∈ all := by
  cases op with
  | other code => cases known
  | _ => decide

theorem text_injective
    (known : op.isKnown = true)
    (known' : op'.isKnown = true)
    (equal : op.text = op'.text) :
    op = op' := by
  have apart : ∀ op ∈ all, ∀ op' ∈ all, op.text = op'.text → op = op' := by
    decide
  exact apart op (mem_all_of_isKnown known) op' (mem_all_of_isKnown known') equal

/-- An operator tells which it is before the space behind it. -/
theorem text_append_inj
    (known : op.isKnown = true)
    (known' : op'.isKnown = true)
    {rest rest' : Text}
    (equal : op.text ++ (" " ++ rest) = op'.text ++ (" " ++ rest')) :
    op = op' ∧ rest = rest' := by
  have visible {op : BinaryOp} (known : op.isKnown = true) :
      ∀ byte ∈ op.text, (byte != Text.space) = true := by
    have spaceless : all.all (fun op => op.text.all (· != Text.space)) = true := by decide
    exact List.all_eq_true.mp (List.all_eq_true.mp spaceless op (mem_all_of_isKnown known))
  have stops (rest : Text) :
      ∀ byte ∈ (" " ++ rest : Text).head?, (byte != Text.space) = false := by
    rintro _ ⟨⟩
    rfl
  obtain ⟨same, behind⟩ := Text.append_inj_of_select (visible known) (visible known')
    (stops rest) (stops rest') equal
  exact ⟨text_injective known known' same, List.append_cancel_left behind⟩

end BinaryOp

/-! ## Lists -/

namespace Text

theorem exists_join_cons (separator first : Text) (others : List Text) (rest : Text) :
    ∃ more, join separator (first :: others) ++ rest = first ++ more := by
  cases others with
  | nil => exact ⟨rest, rfl⟩
  | cons second others =>
      exact ⟨separator ++ join separator (second :: others) ++ rest, by simp [join]⟩

/-- A printed list tells its items and where it ends, if each item does, no item begins
like what follows the list, and no separator does. -/
theorem join_append_inj
    {α β : Type}
    {text : α → Text}
    {key : α → β}
    {separator stop stop' : Text}
    {follows : Text → Prop}
    (ends : follows stop)
    (ends' : follows stop')
    (goesOn : ∀ rest, follows (separator ++ rest))
    (apart : ∀ rest, separator ++ rest ≠ stop)
    (apart' : ∀ rest, separator ++ rest ≠ stop')
    {items items' : List α}
    (begins : ∀ item ∈ items, ∀ rest, text item ++ rest ≠ stop')
    (begins' : ∀ item ∈ items', ∀ rest, text item ++ rest ≠ stop)
    (each : ∀ item ∈ items, ∀ item' ∈ items', ∀ rest rest', follows rest → follows rest' →
      text item ++ rest = text item' ++ rest' → key item = key item' ∧ rest = rest')
    (equal : join separator (items.map text) ++ stop = join separator (items'.map text) ++ stop') :
    items.map key = items'.map key ∧ stop = stop' := by
  induction items generalizing items' with
  | nil =>
      cases items' with
      | nil => exact ⟨rfl, equal⟩
      | cons first others =>
          obtain ⟨more, starts⟩ := exists_join_cons separator (text first) (others.map text) stop'
          exact absurd (equal.trans starts).symm (begins' first List.mem_cons_self more)
  | cons item items inductionHypothesis =>
      cases items' with
      | nil =>
          obtain ⟨more, starts⟩ := exists_join_cons separator (text item) (items.map text) stop
          exact absurd (starts.symm.trans equal) (begins item List.mem_cons_self more)
      | cons item' items' =>
          have first := each item List.mem_cons_self item' List.mem_cons_self
          cases items with
          | nil =>
              cases items' with
              | nil =>
                  obtain ⟨same, behind⟩ := first _ _ ends ends' equal
                  exact ⟨congrArg ([·]) same, behind⟩
              | cons second' others' =>
                  simp only [List.map_cons, List.map_nil, join, List.append_assoc] at equal
                  obtain ⟨-, behind⟩ := first _ _ ends (goesOn _) equal
                  exact absurd behind.symm (apart _)
          | cons second others =>
              cases items' with
              | nil =>
                  simp only [List.map_cons, List.map_nil, join, List.append_assoc] at equal
                  obtain ⟨-, behind⟩ := first _ _ (goesOn _) ends' equal
                  exact absurd behind (apart' _)
              | cons second' others' =>
                  simp only [List.map_cons, join, List.append_assoc] at equal
                  obtain ⟨same, behind⟩ := first _ _ (goesOn _) (goesOn _) equal
                  obtain ⟨rest, stops⟩ := inductionHypothesis
                    (fun other member => begins other (List.mem_cons_of_mem _ member))
                    (fun other member => begins' other (List.mem_cons_of_mem _ member))
                    (fun other member other' member' =>
                      each other (List.mem_cons_of_mem _ member) other'
                        (List.mem_cons_of_mem _ member'))
                    (List.append_cancel_left behind)
                  exact ⟨congrArg₂ List.cons same rest, stops⟩

end Text

/-! ## What follows a printed form -/

/-- What may follow a printed expression: it goes on with no word or number, and with no
second arm of a choice. -/
structure Text.Follows (rest : Text) : Prop where
  delimits : Delimits rest
  noElse : Text.startsWith rest " else" = false

/-- What may follow a printed expression that is not called. -/
structure Text.Closes (rest : Text) : Prop extends Text.Follows rest where
  noCall : rest.head? ≠ some 40

namespace Text

theorem Closes.nil : Closes [] :=
  ⟨⟨.nil, rfl⟩, nofun⟩

theorem Follows.cons
    {first : UInt8}
    (other : Lexeme.isWordByte first = false)
    (visible : first ≠ space)
    (rest : Text) :
    Follows (first :: rest) := by
  refine ⟨.cons other rest, Bool.eq_false_iff.mpr fun starts => ?_⟩
  exact visible (Option.some.inj (Lexeme.head_of_startsWith starts))

theorem Closes.cons
    {first : UInt8}
    (other : Lexeme.isWordByte first = false)
    (visible : first ≠ space)
    (noCall : first ≠ 40)
    (rest : Text) :
    Closes (first :: rest) :=
  ⟨.cons other visible rest, fun heads => noCall (Option.some.inj heads)⟩

/-- A space before anything but a second arm. -/
theorem Closes.space
    {first : UInt8}
    (other : first ≠ 101)
    (rest : Text) :
    Closes (" " ++ first :: rest) := by
  refine ⟨⟨.cons rfl _, Bool.eq_false_iff.mpr fun starts => ?_⟩, nofun⟩
  obtain ⟨more, equal⟩ := List.isPrefixOf_iff_prefix.mp starts
  exact other (List.cons.inj (List.cons.inj equal).2).1.symm

/-- A space before an operator. -/
theorem Closes.operator
    {op : BinaryOp}
    (known : op.isKnown = true)
    (rest : Text) :
    Closes (" " ++ (op.text ++ rest)) := by
  have spelled : ∀ op ∈ BinaryOp.all, op.text.head?.any (· != 101) = true := by
    decide
  have visible := spelled op (BinaryOp.mem_all_of_isKnown known)
  cases equal : op.text with
  | nil =>
      rw [equal] at visible
      cases visible
  | cons first more =>
      rw [equal] at visible
      exact .space (by simpa using visible) _

end Text

/-! ## Calls -/

namespace Expr

/-- The expression called with arguments, what this gives called with others, and so on. -/
def applied (callee : Expr) (calls : List (List Expr)) : Expr :=
  calls.foldl .call callee

/-- The printed form of arguments, one list after the other. -/
def callsText (calls : List (List Expr)) : Text :=
  calls.flatMap fun args => "(" ++ Text.join ", " (texts args) ++ ")"

theorem applied_append_singleton (callee : Expr) (calls : List (List Expr)) (args : List Expr) :
    callee.applied (calls ++ [args]) = .call (callee.applied calls) args := by
  rw [applied, List.foldl_append]
  rfl

theorem callsText_cons (args : List Expr) (calls : List (List Expr)) :
    callsText (args :: calls) = "(" ++ Text.join ", " (texts args) ++ ")" ++ callsText calls := rfl

theorem callsText_append (calls calls' : List (List Expr)) :
    callsText (calls ++ calls') = callsText calls ++ callsText calls' :=
  List.flatMap_append

theorem text_applied (callee : Expr) (calls : List (List Expr)) :
    (callee.applied calls).text = callee.text ++ callsText calls := by
  induction calls generalizing callee with
  | nil => exact (List.append_nil _).symm
  | cons args calls inductionHypothesis =>
      have called : (callee.applied (args :: calls)).text = _ :=
        inductionHypothesis (.call callee args)
      rw [called, callsText_cons, text]
      simp only [List.append_assoc]

/-- Calls add no positions. -/
theorem bare_applied_congr
    {callee callee' : Expr}
    (same : callee.bare = callee'.bare)
    (calls : List (List Expr)) :
    (callee.applied calls).bare = (callee'.applied calls).bare := by
  induction calls generalizing callee callee' with
  | nil => exact same
  | cons args calls inductionHypothesis =>
      exact inductionHypothesis (by rw [bare, bare, same])

theorem wellFormed_applied
    {callee : Expr}
    {calls : List (List Expr)}
    (formed : callee.WellFormed)
    (args : ∀ args ∈ calls, AllWellFormed args) :
    (callee.applied calls).WellFormed := by
  induction calls generalizing callee with
  | nil => exact formed
  | cons first calls inductionHypothesis =>
      rw [List.forall_mem_cons] at args
      exact inductionHypothesis ⟨formed, args.1⟩ args.2

/-- Whether an expression is a call. -/
def isCall : Expr → Bool
  | .call _ _ => true
  | _ => false

/-- Every expression is one that is no call, called with arguments. -/
theorem exists_applied (expr : Expr) (formed : expr.WellFormed) :
    ∃ (callee : Expr) (calls : List (List Expr)), callee.isCall = false ∧
      callee.WellFormed ∧ (∀ args ∈ calls, AllWellFormed args) ∧ expr = callee.applied calls := by
  cases expr with
  | call callee args =>
      obtain ⟨first, calls, head, called, given, equal⟩ := callee.exists_applied formed.1
      refine ⟨first, calls ++ [args], head, called, ?_, ?_⟩
      · intro other member
        rcases List.mem_append.mp member with earlier | last
        · exact given other earlier
        · exact List.mem_singleton.mp last ▸ formed.2
      · rw [applied_append_singleton, ← equal]
  | name | int | bool | unary | binary | function | branch =>
      exact ⟨_, [], rfl, formed, List.forall_mem_nil _, rfl⟩
  | missing => exact formed.elim
termination_by structural expr

theorem follows_callsText
    {rest : Text}
    (follows : rest.Follows)
    (calls : List (List Expr)) :
    Text.Follows (callsText calls ++ rest) := by
  cases calls with
  | nil => exact follows
  | cons args calls => exact .cons rfl (by decide) _

end Expr

/-! ## What a printed form begins with -/

/-- The kind of the lexeme that a text begins with, where a minus sign begins a number. -/
def Lexeme.lead? (text : Text) : Option Kind :=
  match recognise text with
  | .token .minus _ => some .integer
  | .token kind _ => some kind
  | _ => none

/-- The kind of the lexeme that the printed form of an expression begins with, where a
minus sign begins a number. -/
def Expr.lead : Expr → Kind
  | .name _ _ => .identifier
  | .int _ _ => .integer
  | .bool _ true => .trueWord
  | .bool _ false => .falseWord
  | .unary _ _ _ => .leftParen
  | .binary _ _ _ => .leftParen
  | .function _ _ _ => .fnWord
  | .call callee _ => callee.lead
  | .branch _ _ _ _ => .ifWord
  | .missing => .endOfInput

/-- A word begins a text that does not go on with it. -/
theorem Lexeme.lead?_word
    {first : UInt8}
    {others rest : Text}
    (start : isWordStart first = true)
    (goesOn : others.all isWordByte = true)
    (other : wordKind (first :: others) ≠ .minus)
    (delimits : Delimits rest) :
    lead? (first :: others ++ rest) = some (wordKind (first :: others)) := by
  rw [lead?, recognise_word start goesOn delimits]
  split
  · rename_i found
    injection found with kind
    exact absurd kind other
  · rename_i found
    injection found with kind
    rw [kind]
  · rename_i none
    exact absurd rfl (none _ _)

theorem Lexeme.lead?_keyword
    {kind : Kind}
    {rest : Text}
    (reserved : kind.category = .keyword)
    (delimits : Delimits rest) :
    lead? (kind.name ++ rest) = some kind := by
  cases kind with
  | letWord | fnWord | returnWord | ifWord | elseWord | trueWord | falseWord =>
      exact lead?_word rfl rfl (by decide) delimits
  | _ => cases reserved

theorem Lexeme.lead?_number
    {digits rest : Text}
    (nonempty : digits ≠ [])
    (isNumber : ∀ byte ∈ digits, Text.isDigit byte = true)
    (delimits : Delimits rest) :
    lead? (digits ++ rest) = some .integer := by
  rw [lead?, recognise_number nonempty isNumber delimits.isDigit]

/-- The printed form of an expression begins with a lexeme of its kind. -/
theorem Expr.lead?_text
    (expr : Expr)
    (formed : expr.WellFormed)
    {rest : Text}
    (delimits : Delimits rest) :
    Lexeme.lead? (expr.text ++ rest) = some expr.lead := by
  cases expr with
  | name _ name =>
      cases name with
      | nil => cases formed
      | cons first others =>
          simp only [Expr.WellFormed, Lexeme.isName, Bool.and_eq_true, decide_eq_true_eq] at formed
          obtain ⟨⟨start, goesOn⟩, kind⟩ := formed
          have word := Lexeme.lead?_word start goesOn (by simp [kind]) delimits
          rwa [kind] at word
  | int _ value =>
      rw [Expr.text]
      cases value.toInt with
      | ofNat magnitude =>
          exact Lexeme.lead?_number (Text.ofNat_ne_nil magnitude)
            (fun _ => Text.isDigit_of_mem_ofNat) delimits
      | negSucc less => rfl
  | bool _ value =>
      cases value with
      | true =>
          show Lexeme.lead? (Kind.trueWord.name ++ rest) = some .trueWord
          exact Lexeme.lead?_keyword rfl delimits
      | false =>
          show Lexeme.lead? (Kind.falseWord.name ++ rest) = some .falseWord
          exact Lexeme.lead?_keyword rfl delimits
  | unary | binary => rfl
  | function _ params body =>
      have word (rest : Text) : Lexeme.lead? (Kind.fnWord.name ++ 40 :: rest) = some .fnWord :=
        Lexeme.lead?_keyword rfl (.cons rfl rest)
      rw [Expr.text]
      simp only [List.append_assoc]
      exact word _
  | branch _ condition thenArm elseArm =>
      have word (rest : Text) : Lexeme.lead? (Kind.ifWord.name ++ 32 :: rest) = some .ifWord :=
        Lexeme.lead?_keyword rfl (.cons rfl rest)
      rw [Expr.text]
      simp only [List.append_assoc]
      exact word _
  | call callee args =>
      rw [Expr.text]
      simp only [List.append_assoc]
      exact callee.lead?_text formed.1 (.cons rfl _)
  | missing => exact formed.elim
termination_by structural expr

namespace Expr

variable {expr : Expr}

/-- No printed form of an expression begins with an exclamation mark or a closing
parenthesis. -/
theorem exists_text_eq_first (expr : Expr) (formed : expr.WellFormed) :
    ∃ first more, expr.text = first :: more ∧ first ≠ 33 ∧ first ≠ 41 := by
  cases expr with
  | name _ name =>
      cases name with
      | nil => cases formed
      | cons first others =>
          have word := Lexeme.isWordByte_of_isName formed first List.mem_cons_self
          refine ⟨first, others, rfl, ?_, ?_⟩
          · rintro rfl
            cases word
          · rintro rfl
            cases word
  | int _ value =>
      rw [text]
      cases value.toInt with
      | ofNat magnitude =>
          obtain ⟨first, others, equal, digit, -⟩ := Text.exists_ofNat_eq_cons magnitude
          refine ⟨first, others, equal, ?_, ?_⟩
          · rintro rfl
            cases digit
          · rintro rfl
            cases digit
      | negSucc less => exact ⟨45, _, rfl, by decide, by decide⟩
  | bool _ value =>
      cases value with
      | true => exact ⟨116, _, rfl, by decide, by decide⟩
      | false => exact ⟨102, _, rfl, by decide, by decide⟩
  | unary | binary => exact ⟨40, _, rfl, by decide, by decide⟩
  | function => exact ⟨102, _, rfl, by decide, by decide⟩
  | branch => exact ⟨105, _, rfl, by decide, by decide⟩
  | call callee args =>
      obtain ⟨first, more, equal, others⟩ := callee.exists_text_eq_first formed.1
      rw [text, equal]
      exact ⟨first, _, rfl, others⟩
  | missing => exact formed.elim
termination_by structural expr

theorem lead_applied (callee : Expr) (calls : List (List Expr)) :
    (callee.applied calls).lead = callee.lead := by
  induction calls generalizing callee with
  | nil => rfl
  | cons args calls inductionHypothesis => exact inductionHypothesis (.call callee args)

/-- What begins with a number is one, perhaps called. -/
theorem exists_literal
    (formed : expr.WellFormed)
    (lead : expr.lead = .integer) :
    ∃ pos value calls, (∀ args ∈ calls, AllWellFormed args) ∧
      expr = (Expr.int pos value).applied calls := by
  obtain ⟨callee, calls, head, -, given, rfl⟩ := expr.exists_applied formed
  rw [lead_applied] at lead
  cases callee with
  | int pos value => exact ⟨pos, value, calls, given, rfl⟩
  | bool _ value => cases value <;> cases lead
  | call => cases head
  | name | unary | binary | function | branch | missing => cases lead

/-- The printed form of an expression does not begin with a closing parenthesis. -/
theorem text_append_ne_rightParen
    (formed : expr.WellFormed)
    (rest rest' : Text) :
    expr.text ++ rest ≠ ")" ++ rest' := by
  obtain ⟨first, more, begins, -, other⟩ := expr.exists_text_eq_first formed
  rw [begins]
  exact fun equal => other (List.cons.inj equal).1

end Expr

end Siren
