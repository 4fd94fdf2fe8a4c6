import Siren.Proofs.PrintedPieces
import Siren.Proofs.RuntimeSafety

/-!
# Printed forms tell trees apart

Two well-formed trees with the same printed form are the same without their positions.
A printed form is not marked at its end, so this is shown together with where it ends: of
two printed forms that begin the same text, each before something that goes on with
neither, both are the same and so is what follows.

Calls need care.  Behind the printed form of what is called comes the parenthesis of the
arguments, so one of two expressions can be the other one called.  And a minus sign before
a number is printed like the number with the other sign; what follows tells the two apart.
-/

namespace Siren

open Lexeme (Delimits)

/-! ## Expressions that printed forms tell -/

namespace Expr

/-- The second expression is the first one called, and the calls are printed between what
follows the first and what follows the second. -/
def GrowsTo (expr : Expr) (rest : Text) (other : Expr) (rest' : Text) : Prop :=
  ∃ calls, (∀ args ∈ calls, AllWellFormed args) ∧ other.bare = (expr.applied calls).bare ∧
    rest = callsText calls ++ rest'

/-- The printed form tells the expression, apart from calls, and where it ends. -/
def Told (expr : Expr) : Prop :=
  ∀ (other : Expr) (rest rest' : Text), other.WellFormed → rest.Follows → rest'.Follows →
    expr.text ++ rest = other.text ++ rest' →
      expr.GrowsTo rest other rest' ∨ other.GrowsTo rest' expr rest

/-- The same among expressions that are no calls. -/
def ToldAlone (expr : Expr) : Prop :=
  ∀ (other : Expr) (rest rest' : Text), other.isCall = false → other.WellFormed →
    rest.Follows → rest'.Follows → expr.text ++ rest = other.text ++ rest' →
      expr.bare = other.bare ∧ rest = rest'

variable {expr other : Expr} {rest rest' : Text}

theorem GrowsTo.of_closes
    (grows : expr.GrowsTo rest other rest')
    (closes : rest.Closes) :
    expr.bare = other.bare ∧ rest = rest' := by
  obtain ⟨calls, -, same, equal⟩ := grows
  cases calls with
  | nil => exact ⟨same.symm, equal⟩
  | cons args calls =>
      rw [equal] at closes
      exact absurd rfl closes.noCall

/-- Where neither is called, the expressions are the same. -/
theorem Told.closed
    (told : expr.Told)
    (formed : other.WellFormed)
    (closes : rest.Closes)
    (closes' : rest'.Closes)
    (equal : expr.text ++ rest = other.text ++ rest') :
    expr.bare = other.bare ∧ rest = rest' := by
  rcases told other rest rest' formed closes.toFollows closes'.toFollows equal with grows | grows
  · exact grows.of_closes closes
  · obtain ⟨same, behind⟩ := grows.of_closes closes'
    exact ⟨same.symm, behind.symm⟩

theorem ToldAlone.told (told : expr.ToldAlone) : expr.Told := by
  intro other rest rest' formed follows follows' equal
  obtain ⟨callee, calls, head, called, given, rfl⟩ := other.exists_applied formed
  rw [text_applied, List.append_assoc] at equal
  obtain ⟨same, behind⟩ := told callee rest _ head called follows
    (follows_callsText follows' calls) equal
  exact .inl ⟨calls, given, bare_applied_congr same.symm calls, behind⟩

/-- Printed forms of different kinds differ. -/
theorem lead_eq
    (formed : expr.WellFormed)
    (formed' : other.WellFormed)
    (follows : rest.Follows)
    (follows' : rest'.Follows)
    (equal : expr.text ++ rest = other.text ++ rest') :
    expr.lead = other.lead := by
  have lead := expr.lead?_text formed follows.delimits
  rw [equal, other.lead?_text formed' follows'.delimits] at lead
  exact Option.some.inj lead.symm

theorem ToldAlone.name
    (pos : Position)
    {name : Text}
    (named : Lexeme.isName name = true) :
    ToldAlone (.name pos name) := by
  intro other rest rest' alone formed follows follows' equal
  have here : WellFormed (.name pos name) := named
  have lead := lead_eq here formed follows follows' equal
  cases other with
  | name pos' name' =>
      obtain ⟨rfl, behind⟩ := Text.append_inj_of_select (Lexeme.isWordByte_of_isName named)
        (Lexeme.isWordByte_of_isName formed) follows.delimits follows'.delimits equal
      exact ⟨rfl, behind⟩
  | bool _ value => cases value <;> cases lead
  | call => cases alone
  | int | unary | binary | function | branch | missing => cases lead

theorem ToldAlone.int (pos : Position) (value : Int64) : ToldAlone (.int pos value) := by
  intro other rest rest' alone formed follows follows' equal
  have here : WellFormed (.int pos value) := trivial
  have lead := lead_eq here formed follows follows' equal
  cases other with
  | int pos' value' =>
      obtain ⟨same, behind⟩ :=
        Text.ofInt_append_inj follows.delimits follows'.delimits equal
      obtain rfl := Int64.toInt_inj.mp same
      exact ⟨rfl, behind⟩
  | bool _ value => cases value <;> cases lead
  | call => cases alone
  | name | unary | binary | function | branch | missing => cases lead

theorem ToldAlone.bool (pos : Position) (value : Bool) : ToldAlone (.bool pos value) := by
  intro other rest rest' alone formed follows follows' equal
  have here : WellFormed (.bool pos value) := trivial
  have lead := lead_eq here formed follows follows' equal
  cases other with
  | bool pos' value' =>
      obtain rfl : value = value' := by
        cases value <;> cases value' <;> first | rfl | cases lead
      exact ⟨rfl, List.append_cancel_left equal⟩
  | call => cases alone
  | name | int | unary | binary | function | branch | missing => cases value <;> cases lead

/-! ### Operators -/

theorem text_unary_append (pos : Position) (op : UnaryOp) (operand : Expr) (rest : Text) :
    (Expr.unary pos op operand).text ++ rest =
      "(" ++ (op.text ++ (operand.text ++ (")" ++ rest))) := by
  rw [text]
  simp only [List.append_assoc]

theorem text_binary_append (left : Expr) (op : BinaryOp) (right : Expr) (rest : Text) :
    (Expr.binary left op right).text ++ rest =
      "(" ++ (left.text ++ (" " ++ (op.text ++ (" " ++ (right.text ++ (")" ++ rest)))))) := by
  rw [text]
  simp only [List.append_assoc]

theorem closes_rightParen (rest : Text) : Text.Closes (")" ++ rest) :=
  .cons rfl (by decide) (by decide) rest

/-- A minus sign before an operand is printed like that of a number only if the operand is
a number, perhaps called. -/
theorem literals_of_minus
    {left operand : Expr}
    (formed : left.WellFormed)
    (formed' : operand.WellFormed)
    (follows : rest.Follows)
    (follows' : rest'.Follows)
    (equal : left.text ++ rest = 45 :: (operand.text ++ rest')) :
    ∃ pos value calls pos' value' calls',
      (∀ args ∈ calls, AllWellFormed args) ∧ left = (Expr.int pos value).applied calls ∧
      (∀ args ∈ calls', AllWellFormed args) ∧ operand = (Expr.int pos' value').applied calls' ∧
      Text.ofInt value.toInt = 45 :: Text.ofInt value'.toInt := by
  have lead : left.lead = .integer := by
    have begins := left.lead?_text formed follows.delimits
    rw [equal] at begins
    exact Option.some.inj begins.symm
  obtain ⟨pos, value, calls, given, rfl⟩ := exists_literal formed lead
  rw [text_applied, text, List.append_assoc] at equal
  have behind := follows_callsText follows calls
  cases sign : value.toInt with
  | ofNat magnitude =>
      obtain ⟨first, more, spelled, -, unsigned⟩ := Text.exists_ofNat_eq_cons magnitude
      rw [sign, Text.ofInt, spelled] at equal
      exact absurd (List.cons.inj equal).1 unsigned
  | negSucc less =>
      rw [sign] at equal
      have number : Text.ofNat (less + 1) ++ (callsText calls ++ rest) = operand.text ++ rest' :=
        (List.cons.inj equal).2
      have lead' : operand.lead = .integer := by
        have begins := operand.lead?_text formed' follows'.delimits
        rw [← number, Lexeme.lead?_number (Text.ofNat_ne_nil _)
          (fun _ => Text.isDigit_of_mem_ofNat) behind.delimits] at begins
        exact Option.some.inj begins.symm
      obtain ⟨pos', value', calls', given', rfl⟩ := exists_literal formed' lead'
      rw [text_applied, text, List.append_assoc] at number
      have behind' := follows_callsText follows' calls'
      have same : Int.ofNat (less + 1) = value'.toInt :=
        (Text.ofInt_append_inj behind.delimits behind'.delimits (by exact number)).1
      exact ⟨pos, value, calls, pos', value', calls', given, rfl, given', rfl, by
        rw [sign, ← same]; rfl⟩

/-- A sign before an operand is not printed like an operator between two. -/
theorem unary_ne_binary
    {left operand : Expr}
    {op : UnaryOp}
    (known : op.isKnown = true)
    (formed : left.WellFormed)
    (formed' : operand.WellFormed)
    (told : left.Told ∨ operand.Told)
    (closes : Text.Closes (" " ++ rest)) :
    left.text ++ (" " ++ rest) ≠ op.text ++ (operand.text ++ (")" ++ rest')) := by
  intro equal
  cases op with
  | not =>
      obtain ⟨first, more, begins, other, -⟩ := left.exists_text_eq_first formed
      rw [begins] at equal
      exact other (List.cons.inj equal).1
  | negate =>
      have closes' := closes_rightParen rest'
      obtain ⟨pos, value, calls, pos', value', calls', given, rfl, given', rfl, signed⟩ :=
        literals_of_minus formed formed' closes.toFollows closes'.toFollows equal
      rw [text_applied, text_applied, text, text, signed] at equal
      have behind : callsText calls ++ (" " ++ rest) = callsText calls' ++ (")" ++ rest') := by
        have number : Text.ofInt value'.toInt ++ callsText calls ++ (" " ++ rest) =
            Text.ofInt value'.toInt ++ callsText calls' ++ (")" ++ rest') :=
          (List.cons.inj equal).2
        rwa [List.append_assoc, List.append_assoc, List.append_cancel_left_eq] at number
      -- So any number is printed alike with the calls of one and of the other.
      have alike (literal : Expr) : (literal.applied calls).text ++ (" " ++ rest) =
          (literal.applied calls').text ++ (")" ++ rest') := by
        rw [text_applied, text_applied, List.append_assoc, List.append_assoc, behind]
      rcases told with told | told
      · have formed' : WellFormed ((Expr.int pos value).applied calls') :=
          wellFormed_applied trivial given'
        cases (told.closed formed' closes closes' (alike _)).2
      · have formed : WellFormed ((Expr.int pos' value').applied calls) :=
          wellFormed_applied trivial given
        cases (told.closed formed closes' closes (alike _).symm).2
  | other code => cases known

theorem ToldAlone.unary
    (pos : Position)
    {op : UnaryOp}
    {operand : Expr}
    (known : op.isKnown = true)
    (formed : operand.WellFormed)
    (told : operand.Told) :
    ToldAlone (.unary pos op operand) := by
  intro other rest rest' alone formed' follows follows' equal
  have here : WellFormed (.unary pos op operand) := ⟨known, formed⟩
  have lead := lead_eq here formed' follows follows' equal
  cases other with
  | unary pos' op' operand' =>
      rw [text_unary_append, text_unary_append, List.append_cancel_left_eq] at equal
      have same : op = op' := by
        cases op with
        | other code => cases known
        | negate | not =>
            cases op' with
            | other code => cases formed'.1
            | negate | not => first | rfl | cases (List.cons.inj equal).1
      subst same
      rw [List.append_cancel_left_eq] at equal
      obtain ⟨same, behind⟩ := told.closed formed'.2 (closes_rightParen _) (closes_rightParen _)
        equal
      exact ⟨by rw [bare, bare, same], List.append_cancel_left behind⟩
  | binary left op' right =>
      rw [text_unary_append, text_binary_append, List.append_cancel_left_eq] at equal
      exact absurd equal.symm (unary_ne_binary known formed'.2.1 formed (.inr told)
        (.operator formed'.1 _))
  | bool _ value => cases value <;> cases lead
  | call => cases alone
  | name | int | function | branch | missing => cases lead

theorem ToldAlone.binary
    {left right : Expr}
    {op : BinaryOp}
    (known : op.isKnown = true)
    (formed : left.WellFormed ∧ right.WellFormed)
    (told : left.Told)
    (told' : right.Told) :
    ToldAlone (.binary left op right) := by
  intro other rest rest' alone formed' follows follows' equal
  have here : WellFormed (.binary left op right) := ⟨known, formed⟩
  have lead := lead_eq here formed' follows follows' equal
  cases other with
  | unary pos' op' operand =>
      rw [text_unary_append, text_binary_append, List.append_cancel_left_eq] at equal
      exact absurd equal (unary_ne_binary formed'.1 formed.1 formed'.2 (.inl told)
        (.operator known _))
  | binary left' op' right' =>
      rw [text_binary_append, text_binary_append, List.append_cancel_left_eq] at equal
      obtain ⟨same, behind⟩ := told.closed formed'.2.1 (.operator known _) (.operator formed'.1 _)
        equal
      rw [List.append_cancel_left_eq] at behind
      obtain ⟨rfl, further⟩ := BinaryOp.text_append_inj known formed'.1 behind
      obtain ⟨same', closed⟩ := told'.closed formed'.2.2 (closes_rightParen _)
        (closes_rightParen _) further
      exact ⟨by rw [bare, bare, same, same'], List.append_cancel_left closed⟩
  | bool _ value => cases value <;> cases lead
  | call => cases alone
  | name | int | function | branch | missing => cases lead

/-! ### Calls -/

theorem bareAll_eq_map (exprs : List Expr) : bareAll exprs = exprs.map bare := by
  induction exprs with
  | nil => rfl
  | cons expr exprs inductionHypothesis => rw [bareAll, inductionHypothesis, List.map_cons]

theorem AllWellFormed.of_mem
    {exprs : List Expr}
    (formed : AllWellFormed exprs)
    (member : expr ∈ exprs) :
    expr.WellFormed := by
  induction exprs with
  | nil => cases member
  | cons first others inductionHypothesis =>
      cases member with
      | head => exact formed.1
      | tail _ later => exact inductionHypothesis formed.2 later

/-- The arguments of a call are told if each of them is. -/
theorem texts_append_inj
    {args args' : List Expr}
    (formed : AllWellFormed args)
    (formed' : AllWellFormed args')
    (told : ∀ arg ∈ args, arg.Told)
    (equal : Text.join ", " (texts args) ++ (")" ++ rest) =
      Text.join ", " (texts args') ++ (")" ++ rest')) :
    bareAll args = bareAll args' ∧ rest = rest' := by
  rw [texts_eq_map, texts_eq_map] at equal
  have comma (rest rest' : Text) : ", " ++ rest ≠ ")" ++ rest' :=
    fun same => absurd (List.cons.inj same).1 (by decide)
  obtain ⟨same, behind⟩ := Text.join_append_inj (closes_rightParen rest) (closes_rightParen rest')
    (fun _ => .cons rfl (by decide) (by decide) _) (comma · rest) (comma · rest')
    (fun arg member more => text_append_ne_rightParen (formed.of_mem member) more _)
    (fun arg member more => text_append_ne_rightParen (formed'.of_mem member) more _)
    (fun arg member arg' member' _ _ closes closes' =>
      (told arg member).closed (formed'.of_mem member') closes closes')
    equal
  rw [bareAll_eq_map, bareAll_eq_map]
  exact ⟨same, List.append_cancel_left behind⟩

theorem text_call_append (callee : Expr) (args : List Expr) (rest : Text) :
    (Expr.call callee args).text ++ rest = callee.text ++ (callsText [args] ++ rest) := by
  have called := text_applied callee [args]
  rw [show callee.applied [args] = .call callee args from rfl] at called
  rw [called, List.append_assoc]

theorem Told.call
    {callee : Expr}
    {args : List Expr}
    (formed : AllWellFormed args)
    (told : callee.Told)
    (given : ∀ arg ∈ args, arg.Told) :
    Told (.call callee args) := by
  intro other rest rest' formed' follows follows' equal
  rw [text_call_append] at equal
  rcases told other _ _ formed' (follows_callsText follows [args]) follows' equal with
    ⟨calls, listed, same, behind⟩ | ⟨calls, listed, same, behind⟩
  · cases calls with
    | nil =>
        -- The other expression ends before the arguments.
        refine .inr ⟨[args], List.forall_mem_singleton.mpr formed, ?_, behind.symm⟩
        exact bare_applied_congr same.symm [args]
    | cons args' calls =>
        rw [List.forall_mem_cons] at listed
        have arguments : Text.join ", " (texts args) ++ (")" ++ rest) =
            Text.join ", " (texts args') ++ (")" ++ (callsText calls ++ rest')) := by
          rw [callsText_cons, callsText_cons] at behind
          simp only [List.append_assoc] at behind
          exact List.append_cancel_left behind
        obtain ⟨same', further⟩ := texts_append_inj formed listed.1 given arguments
        refine .inl ⟨calls, listed.2, same.trans ?_, further⟩
        exact bare_applied_congr (by rw [bare, bare, same']) calls
  · refine .inr ⟨calls ++ [args], ?_, ?_, ?_⟩
    · exact List.forall_mem_append.mpr ⟨listed, List.forall_mem_singleton.mpr formed⟩
    · rw [applied_append_singleton, bare, bare, same]
    · rw [callsText_append, List.append_assoc, behind]

end Expr

/-! ## Statements that printed forms tell -/

/-- The printed form tells the statement and where it ends. -/
def Stmt.Told (stmt : Stmt) : Prop :=
  ∀ (other : Stmt) (rest rest' : Text), other.WellFormed → rest.Closes → rest'.Closes →
    stmt.text ++ rest = other.text ++ rest' → stmt.bare = other.bare ∧ rest = rest'

namespace Stmt

variable {stmt : Stmt} {rest rest' : Text}

/-- A name and the value behind the equals sign are told if the value is. -/
theorem named_append_inj
    {name name' : Text}
    {value value' : Expr}
    (named : Lexeme.isName name = true)
    (named' : Lexeme.isName name' = true)
    (told : value.Told)
    (formed : value'.WellFormed)
    (closes : rest.Closes)
    (closes' : rest'.Closes)
    (equal : name ++ (" = " ++ (value.text ++ rest)) = name' ++ (" = " ++ (value'.text ++ rest'))) :
    name = name' ∧ value.bare = value'.bare ∧ rest = rest' := by
  have stops (rest : Text) : Delimits (" = " ++ rest) :=
    .cons rfl _
  obtain ⟨same, behind⟩ := Text.append_inj_of_select (Lexeme.isWordByte_of_isName named)
    (Lexeme.isWordByte_of_isName named') (stops _) (stops _) equal
  exact ⟨same, told.closed formed closes closes' (List.append_cancel_left behind)⟩

theorem Told.declare
    (pos : Position)
    {name : Text}
    {value : Expr}
    (named : Lexeme.isName name = true)
    (told : value.Told) :
    Told (.declare pos name value) := by
  intro other rest rest' formed closes closes' equal
  cases other with
  | declare pos' name' value' =>
      simp only [text, List.append_assoc, List.append_cancel_left_eq] at equal
      obtain ⟨rfl, same, behind⟩ :=
        named_append_inj named formed.1 told formed.2 closes closes' equal
      exact ⟨by rw [bare, bare, same], behind⟩
  | assign | expr | result => cases (List.cons.inj equal).1
  | missing => exact formed.elim

theorem Told.assign
    (pos : Position)
    {name : Text}
    {value : Expr}
    (named : Lexeme.isName name = true)
    (told : value.Told) :
    Told (.assign pos name value) := by
  intro other rest rest' formed closes closes' equal
  cases other with
  | assign pos' name' value' =>
      simp only [text, List.append_assoc, List.append_cancel_left_eq] at equal
      obtain ⟨rfl, same, behind⟩ :=
        named_append_inj named formed.1 told formed.2 closes closes' equal
      exact ⟨by rw [bare, bare, same], behind⟩
  | declare | expr | result => cases (List.cons.inj equal).1
  | missing => exact formed.elim

theorem Told.expr {value : Expr} (told : value.Told) : Told (.expr value) := by
  intro other rest rest' formed closes closes' equal
  cases other with
  | expr value' =>
      simp only [text, List.append_assoc, List.append_cancel_left_eq] at equal
      obtain ⟨same, behind⟩ := told.closed formed closes closes' equal
      exact ⟨by rw [bare, bare, same], behind⟩
  | declare | assign | result => cases (List.cons.inj equal).1
  | missing => exact formed.elim

theorem Told.result (pos : Position) {value : Expr} (told : value.Told) :
    Told (.result pos value) := by
  intro other rest rest' formed closes closes' equal
  cases other with
  | result pos' value' =>
      simp only [text, List.append_assoc, List.append_cancel_left_eq] at equal
      obtain ⟨same, behind⟩ := told.closed formed closes closes' equal
      exact ⟨by rw [bare, bare, same], behind⟩
  | declare | assign | expr => cases (List.cons.inj equal).1
  | missing => exact formed.elim

/-- The printed form of a statement begins with a letter. -/
theorem exists_text_eq_cons (formed : stmt.WellFormed) :
    ∃ first more, stmt.text = first :: more ∧ Lexeme.isWordByte first = true := by
  cases stmt with
  | declare | assign | expr | result => exact ⟨_, _, rfl, rfl⟩
  | missing => exact formed.elim

end Stmt

/-! ### Blocks -/

namespace Block

variable {stmts stmts' : List Stmt} {rest rest' : Text}

theorem bare_eq_map (stmts : List Stmt) : Block.bare stmts = stmts.map Stmt.bare := by
  induction stmts with
  | nil => rfl
  | cons stmt stmts inductionHypothesis => rw [Block.bare, inductionHypothesis, List.map_cons]

/-- The closing brace is not read as a further statement. -/
theorem closedText_cons_append_ne
    {stmt : Stmt}
    (formed : stmt.WellFormed)
    (stmts : List Stmt)
    (rest rest' : Text) :
    closedText (stmt :: stmts) ++ rest ≠ "\x7d" ++ rest' := by
  obtain ⟨first, more, begins, word⟩ := stmt.exists_text_eq_cons formed
  rw [closedText, begins]
  intro equal
  rw [show first = 125 from (List.cons.inj equal).1] at word
  cases word

theorem closedText_append_inj
    (formed : Block.WellFormed stmts)
    (formed' : Block.WellFormed stmts')
    (told : ∀ stmt ∈ stmts, stmt.Told)
    (equal : closedText stmts ++ ("\x7d" ++ rest) = closedText stmts' ++ ("\x7d" ++ rest')) :
    Block.bare stmts = Block.bare stmts' ∧ rest = rest' := by
  have closes (rest : Text) : Text.Closes ("; " ++ rest) :=
    .cons rfl (by decide) (by decide) _
  induction stmts generalizing stmts' with
  | nil =>
      cases stmts' with
      | nil => exact ⟨rfl, List.append_cancel_left equal⟩
      | cons stmt' stmts' => exact absurd equal.symm (closedText_cons_append_ne formed'.1 _ _ _)
  | cons stmt stmts inductionHypothesis =>
      cases stmts' with
      | nil => exact absurd equal (closedText_cons_append_ne formed.1 _ _ _)
      | cons stmt' stmts' =>
          rw [List.forall_mem_cons] at told
          simp only [closedText, List.append_assoc] at equal
          obtain ⟨first, behind⟩ := told.1 stmt' _ _ formed'.1 (closes _) (closes _) equal
          obtain ⟨others, further⟩ := inductionHypothesis formed.2 formed'.2 told.2
            (List.append_cancel_left behind)
          exact ⟨by rw [Block.bare, Block.bare, first, others], further⟩

/-- A printed block tells its statements and where it ends. -/
theorem text_append_inj
    (formed : Block.WellFormed stmts)
    (formed' : Block.WellFormed stmts')
    (told : ∀ stmt ∈ stmts, stmt.Told)
    (equal : Block.text stmts ++ rest = Block.text stmts' ++ rest') :
    Block.bare stmts = Block.bare stmts' ∧ rest = rest' := by
  simp only [Block.text, braces, List.append_assoc, List.append_cancel_left_eq] at equal
  exact closedText_append_inj formed formed' told equal

/-- An absent second arm is not printed like one that is there. -/
theorem elseText_append_inj
    {arm arm' : Option (List Stmt)}
    (formed : ElseWellFormed arm)
    (formed' : ElseWellFormed arm')
    (told : ∀ block ∈ arm, ∀ stmt ∈ block, stmt.Told)
    (follows : rest.Follows)
    (follows' : rest'.Follows)
    (equal : elseText arm ++ rest = elseText arm' ++ rest') :
    bareElse arm = bareElse arm' ∧ rest = rest' := by
  have present (block : List Stmt) (rest : Text) :
      Text.startsWith (elseText (some block) ++ rest) " else" = true := rfl
  cases arm with
  | none =>
      cases arm' with
      | none => exact ⟨rfl, equal⟩
      | some block' =>
          have absent := follows.noElse
          rw [show rest = _ from equal, present] at absent
          cases absent
  | some block =>
      cases arm' with
      | none =>
          have absent := follows'.noElse
          rw [show rest' = _ from equal.symm, present] at absent
          cases absent
      | some block' =>
          simp only [elseText, List.append_assoc, List.append_cancel_left_eq] at equal
          obtain ⟨same, behind⟩ := text_append_inj formed formed' (told block rfl) equal
          exact ⟨by rw [bareElse, bareElse, same], behind⟩

end Block

/-! ### Functions and choices -/

/-- A printed function tells its parameters, its body and where it ends. -/
theorem Function.text_append_inj
    {function function' : Function}
    {rest rest' : Text}
    (formed : function.WellFormed)
    (formed' : function'.WellFormed)
    (told : ∀ stmt ∈ function.body, stmt.Told)
    (equal : function.text ++ rest = function'.text ++ rest') :
    function.bare = function'.bare ∧ rest = rest' := by
  have comma (rest rest' : Text) : ", " ++ rest ≠ ") " ++ rest' :=
    fun same => absurd (List.cons.inj same).1 (by decide)
  have param {name : Text} (named : Lexeme.isName name = true) (rest rest' : Text) :
      name ++ rest ≠ ") " ++ rest' := by
    have formed : (Expr.name .nowhere name).WellFormed := named
    exact Expr.text_append_ne_rightParen formed rest (" " ++ rest')
  have closes (rest : Text) : Delimits (") " ++ rest) :=
    .cons rfl _
  simp only [Function.text, List.append_assoc, List.append_cancel_left_eq] at equal
  rw [← List.map_id function.params, ← List.map_id function'.params] at equal
  obtain ⟨params, behind⟩ := Text.join_append_inj (closes _) (closes _)
    (fun _ => .cons rfl _) (comma · _) (comma · _)
    (fun _ member rest => param (formed.names _ member) rest _)
    (fun _ member rest => param (formed'.names _ member) rest _)
    (fun _ member _ member' _ _ => Text.append_inj_of_select
      (Lexeme.isWordByte_of_isName (formed.names _ member))
      (Lexeme.isWordByte_of_isName (formed'.names _ member')))
    equal
  rw [List.map_id', List.map_id'] at params
  obtain ⟨body, further⟩ := Block.text_append_inj formed.body formed'.body told
    (List.append_cancel_left behind)
  exact ⟨by rw [Function.bare, Function.bare, params, body], further⟩

namespace Expr

theorem ToldAlone.function
    (pos : Position)
    {params : List Text}
    {body : List Stmt}
    (formed : Function.WellFormed ⟨params, body⟩)
    (told : ∀ stmt ∈ body, stmt.Told) :
    ToldAlone (.function pos params body) := by
  intro other rest rest' alone formed' follows follows' equal
  have here : WellFormed (.function pos params body) :=
    ⟨formed.distinct, formed.names, formed.body⟩
  have lead := lead_eq here formed' follows follows' equal
  cases other with
  | function pos' params' body' =>
      have there : Function.WellFormed ⟨params', body'⟩ := ⟨formed'.1, formed'.2.1, formed'.2.2⟩
      obtain ⟨same, behind⟩ := Function.text_append_inj formed there told equal
      obtain ⟨rfl, statements⟩ := Function.mk.inj same
      exact ⟨by rw [bare, bare, statements], behind⟩
  | bool _ value => cases value <;> cases lead
  | call => cases alone
  | name | int | unary | binary | branch | missing => cases lead

theorem text_branch_append
    (pos : Position)
    (condition : Expr)
    (thenArm : List Stmt)
    (elseArm : Option (List Stmt))
    (rest : Text) :
    (Expr.branch pos condition thenArm elseArm).text ++ rest =
      "if " ++ (condition.text ++
        (" " ++ (Block.text thenArm ++ (Block.elseText elseArm ++ rest)))) := by
  rw [text, ← Block.text]
  simp only [List.append_assoc]

theorem ToldAlone.branch
    (pos : Position)
    {condition : Expr}
    {thenArm : List Stmt}
    {elseArm : Option (List Stmt)}
    (formed : WellFormed (.branch pos condition thenArm elseArm))
    (told : condition.Told)
    (toldThen : ∀ stmt ∈ thenArm, stmt.Told)
    (toldElse : ∀ block ∈ elseArm, ∀ stmt ∈ block, stmt.Told) :
    ToldAlone (.branch pos condition thenArm elseArm) := by
  intro other rest rest' alone formed' follows follows' equal
  have lead := lead_eq formed formed' follows follows' equal
  have brace (block : List Stmt) (rest : Text) : Text.Closes (" " ++ (Block.text block ++ rest)) :=
    .space (by decide) _
  cases other with
  | branch pos' condition' thenArm' elseArm' =>
      rw [text_branch_append, text_branch_append, List.append_cancel_left_eq] at equal
      obtain ⟨same, behind⟩ := told.closed formed'.1 (brace _ _) (brace _ _) equal
      obtain ⟨sameThen, arms⟩ := Block.text_append_inj formed.2.1 formed'.2.1 toldThen
        (List.append_cancel_left behind)
      obtain ⟨sameElse, further⟩ := Block.elseText_append_inj formed.2.2 formed'.2.2 toldElse
        follows follows' arms
      exact ⟨by rw [bare, bare, same, sameThen, sameElse], further⟩
  | bool _ value => cases value <;> cases lead
  | call => cases alone
  | name | int | unary | binary | function | missing => cases lead

end Expr

/-! ## Well-formed trees are told -/

mutual

theorem Expr.told (expr : Expr) (formed : expr.WellFormed) : expr.Told := by
  cases expr with
  | name pos name => exact (Expr.ToldAlone.name pos formed).told
  | int pos value => exact (Expr.ToldAlone.int pos value).told
  | bool pos value => exact (Expr.ToldAlone.bool pos value).told
  | unary pos op operand =>
      exact (Expr.ToldAlone.unary pos formed.1 formed.2 (Expr.told operand formed.2)).told
  | binary left op right =>
      exact (Expr.ToldAlone.binary formed.1 formed.2 (Expr.told left formed.2.1)
        (Expr.told right formed.2.2)).told
  | function pos params body =>
      exact (Expr.ToldAlone.function pos ⟨formed.1, formed.2.1, formed.2.2⟩
        (Block.told body formed.2.2)).told
  | call callee args =>
      exact .call formed.2 (Expr.told callee formed.1) (Expr.allTold args formed.2)
  | branch pos condition thenArm elseArm =>
      exact (Expr.ToldAlone.branch pos formed (Expr.told condition formed.1)
        (Block.told thenArm formed.2.1) (Block.elseTold elseArm formed.2.2)).told
  | missing => exact formed.elim
termination_by structural expr

theorem Expr.allTold (exprs : List Expr) (formed : Expr.AllWellFormed exprs) :
    ∀ expr ∈ exprs, expr.Told := by
  cases exprs with
  | nil => exact List.forall_mem_nil _
  | cons expr exprs =>
      exact List.forall_mem_cons.mpr ⟨Expr.told expr formed.1, Expr.allTold exprs formed.2⟩
termination_by structural exprs

theorem Stmt.told (stmt : Stmt) (formed : stmt.WellFormed) : stmt.Told := by
  cases stmt with
  | declare pos name value => exact .declare pos formed.1 (Expr.told value formed.2)
  | assign pos name value => exact .assign pos formed.1 (Expr.told value formed.2)
  | expr value => exact .expr (Expr.told value formed)
  | result pos value => exact .result pos (Expr.told value formed)
  | missing => exact formed.elim
termination_by structural stmt

theorem Block.told (stmts : List Stmt) (formed : Block.WellFormed stmts) :
    ∀ stmt ∈ stmts, stmt.Told := by
  cases stmts with
  | nil => exact List.forall_mem_nil _
  | cons stmt stmts =>
      exact List.forall_mem_cons.mpr ⟨Stmt.told stmt formed.1, Block.told stmts formed.2⟩
termination_by structural stmts

theorem Block.elseTold (arm : Option (List Stmt)) (formed : Block.ElseWellFormed arm) :
    ∀ block ∈ arm, ∀ stmt ∈ block, stmt.Told := by
  cases arm with
  | none => exact nofun
  | some block =>
      rintro _ ⟨⟩
      exact Block.told block formed
termination_by structural arm

end

/-! ## Printing tells programs apart -/

/-- Well-formed programs with the same printed form are the same up to positions. -/
theorem Program.bare_eq_of_text_eq
    {program program' : Program}
    (formed : Block.WellFormed program)
    (formed' : Block.WellFormed program')
    (equal : program.text = program'.text) :
    Block.bare program = Block.bare program' := by
  have nonempty {stmt : Stmt} (formed : stmt.WellFormed) (rest : Text) :
      stmt.text ++ rest ≠ [] := by
    obtain ⟨first, more, begins, -⟩ := stmt.exists_text_eq_cons formed
    rw [begins]
    exact List.cons_ne_nil _ _
  have joined : Text.join [Text.lineFeed] (program.map Stmt.text) ++ [] =
      Text.join [Text.lineFeed] (program'.map Stmt.text) ++ [] := by
    rw [List.append_nil, List.append_nil]
    exact equal
  obtain ⟨same, -⟩ := Text.join_append_inj Text.Closes.nil Text.Closes.nil
    (fun _ => .cons rfl (by decide) (by decide) _)
    (fun _ => List.cons_ne_nil _ _)
    (fun _ => List.cons_ne_nil _ _)
    (fun _ member rest => nonempty (formed.of_mem member) rest)
    (fun _ member rest => nonempty (formed'.of_mem member) rest)
    (fun stmt member stmt' member' rest rest' =>
      Block.told program formed stmt member stmt' rest rest' (formed'.of_mem member'))
    joined
  rw [Block.bare_eq_map, Block.bare_eq_map, same]

theorem Function.bare_eq_of_text_eq
    {function function' : Function}
    (formed : function.WellFormed)
    (formed' : function'.WellFormed)
    (equal : function.text = function'.text) :
    function.bare = function'.bare := by
  have closed : function.text ++ [] = function'.text ++ [] := by
    rw [equal]
  exact (Function.text_append_inj formed formed' (Block.told _ formed.body) closed).1

/-- A function that is bound in a session, or that a program or one of its statements
gives there. -/
inductive Function.Arises (function : Function) : Prop where
  | bound {limit : DepthLimit} {machine : Machine} {frame : Frame} {name : Text}
      (reached : machine.Reached limit)
      (opened : frame ∈ machine.scope.frames)
      (member : (name, .fn function) ∈ frame)
  | run {limit : DepthLimit} {machine after : Machine} {source : Text}
      (reached : machine.Reached limit)
      (clean : (Program.ofText source).errors = [])
      (ends : (Program.ofText source).program.EndsWith limit limit.refusal machine
        (.ok (.fn function)) after)
  | exec {limit : DepthLimit} {machine after : Machine} {source : Text} {stmt : Stmt}
      {result : Except Fault Outcome}
      (reached : machine.Reached limit)
      (clean : (Program.ofText source).errors = [])
      (member : stmt ∈ (Program.ofText source).program)
      (ends : Ends limit limit.refusal (.stmt stmt) machine result after)
      (gives : result.map Outcome.result = .ok (.fn function))

theorem Function.Arises.wellFormed
    {function : Function}
    (arises : function.Arises) :
    function.WellFormed := by
  have proper (ordinary : Proper (.ok (.fn function))) : function.WellFormed := by
    cases ordinary with
    | value ordinary => exact ordinary
  cases arises with
  | bound reached opened member => exact reached.ordinary.values _ opened _ member
  | run reached clean ends =>
      obtain ⟨outcome, ends, gives⟩ := ends
      refine proper ?_
      rw [gives]
      exact (ends.proper_of_seq reached.ordinary (Program.wellFormed_ofText clean)).1
  | exec reached clean member ends gives =>
      refine proper ?_
      rw [← gives]
      exact (ends.proper_of_stmt reached.ordinary
        ((Program.wellFormed_ofText clean).of_mem member)).1

/-- What a program gives in a session of its own, if it is a function, arises. -/
theorem Function.exists_arises
    {source : Text}
    (clean : (Program.ofText source).errors = [])
    (printed : Text)
    (gives : ((Session.start (.atMost 0)).run (Program.ofText source).program).1.map
      (fun value => (value.kindName, value.text)) = .ok ("fn", printed)) :
    ∃ function : Function, function.Arises ∧ function.text = printed := by
  cases equal : ((Session.start (.atMost 0)).run (Program.ofText source).program).1 with
  | error fault =>
      rw [equal] at gives
      cases gives
  | ok value =>
      rw [equal] at gives
      obtain ⟨kind, text⟩ := Prod.mk.inj (Except.ok.inj gives)
      cases value with
      | fn function =>
          have ends := (Session.run_eq_iff (.atMost 0)).mp (Prod.ext equal rfl)
          exact ⟨function, .run .start clean ends, text⟩
      | unit | int | bool | foreign => cases kind

/-- Printed forms tell programs apart.  Two source texts without syntax errors whose
programs have the same printed form give the same program up to positions, and two
functions of sessions that run such programs are the same up to positions if they have the
same printed form. -/
theorem printed_forms_tell_programs :
    (∀ source source' : Text,
      (Program.ofText source).errors = [] → (Program.ofText source').errors = [] →
      Program.text (Program.ofText source).program = Program.text (Program.ofText source').program →
        Block.bare (Program.ofText source).program =
          Block.bare (Program.ofText source').program) ∧
    ∀ function function' : Function, function.Arises → function'.Arises →
      function.text = function'.text → function.bare = function'.bare := by
  refine ⟨fun source source' clean clean' equal => ?_, fun function function' arises arises' => ?_⟩
  · exact Program.bare_eq_of_text_eq (Program.wellFormed_ofText clean)
      (Program.wellFormed_ofText clean') equal
  · exact Function.bare_eq_of_text_eq arises.wellFormed arises'.wellFormed

/-- Parentheses around a number or a function are not printed, and nothing else is lost. -/
theorem printed_forms_tell_programs_grouped :
    let plain : Text := "if -5(n) \x7b \x7d"
    let grouped : Text := "if (-5)(n) \x7b\n\x7d"
    let printed : Text := "fn(n) \x7b \x7d"
    ((Program.ofText plain).errors = [] ∧ (Program.ofText grouped).errors = [] ∧
      Block.bare (Program.ofText plain).program = Block.bare (Program.ofText grouped).program) ∧
    ∃ function function' : Function, function.Arises ∧ function'.Arises ∧
      function.text = printed ∧ function'.text = printed ∧ function.bare = function'.bare := by
  intro plain grouped printed
  have clean : (Program.ofText plain).errors = [] := by decide +kernel
  have clean' : (Program.ofText grouped).errors = [] := by decide +kernel
  have same : Program.text (Program.ofText plain).program =
      Program.text (Program.ofText grouped).program := by decide +kernel
  have cleanFn : (Program.ofText "fn(n) \x7b \x7d").errors = [] := by decide +kernel
  have cleanFn' : (Program.ofText "(fn (n) \x7b\n\x7d)").errors = [] := by decide +kernel
  obtain ⟨function, arises, text⟩ := Function.exists_arises cleanFn printed (by decide +kernel)
  obtain ⟨function', arises', text'⟩ := Function.exists_arises cleanFn' printed (by decide +kernel)
  exact ⟨⟨clean, clean', printed_forms_tell_programs.1 _ _ clean clean' same⟩,
    function, function', arises, arises', text, text',
    printed_forms_tell_programs.2 _ _ arises arises' (text.trans text'.symm)⟩

end Siren
